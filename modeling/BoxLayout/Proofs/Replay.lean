-- SUMMARY: A replay succeeds exactly if what is required can be met, and then solves to an optimum.
import BoxLayout.Proofs.Answers
import BoxLayout.Proofs.Lawful

/-!
# What a replay decides

A replay starts from the empty solver and removes nothing. On the way every basic dummy
stays zero, so the values that the tableau shows meet what has been brought in so far. A
suggestion can then always be followed, and a constraint is refused only if there are no
values for it. So the only way to fail is a contradiction among what is required, loops
that run out of steps apart.
-/

namespace BoxLayout

open Attempt Solver

/-- What a replay keeps of the solver. -/
structure Solver.Fresh (s : Solver Rat) : Prop where
  sound : s.Sound
  clean : s.tableau.Clean
  weighted : s.Weighted

theorem Solver.fresh_empty (steps : Nat) : (empty steps : Solver Rat).Fresh where
  sound := sound_empty steps
  clean _ _ h := by cases h
  weighted _ _ h := by cases h

namespace Engine

variable {e : Engine Rat} {d : Demand Rat} {s : Solver Rat} {x : VariableId} {c : ConstraintId}

/-- How a replay may fail, if it is not denied. -/
def Refuses (e : Engine Rat) (err : SolverError) (_ : Solver Rat) : Prop :=
  err.isDenial = false → err = .outOfSteps ∨ err = .unsatisfiableConstraint ∧ ¬∃ y, e.Required y

/-- A constraint is added, or contradicts what is required. -/
theorem Registered.add_ensures (h : e.Registered) (hsub : d.Sub e.demand) (hmirrors : Mirrors d s)
    (hfresh : s.Fresh) {k : Constraint Rat} (hmade : k.Made)
    (hk : ∀ y : Variable → Rat, e.Required (fun x => y x.backing) → k.isRequired = true → k.Holds y) :
    (addConstraint k).Ensures s (fun _ s' => s'.Fresh) e.Refuses := by
  refine (addConstraint_ensures hfresh.sound k).mono ?_ ?_
  · rintro - s' hadded
    obtain ⟨tag, hconstraints, -⟩ := hadded.constraints
    exact ⟨hadded.sound, hadded.clean hfresh.clean,
      hfresh.weighted.of_insert hmade.weight_nonneg hconstraints⟩
  · intro err s' hfail hdenial
    cases hfail with
    | duplicate _ => cases hdenial
    | contradiction _ hnone =>
      refine Or.inr ⟨rfl, ?_⟩
      rintro ⟨y, hy⟩
      obtain ⟨z, hz⟩ := h.exists_lift y
      have hy := h.required_congr hz hy
      exact hnone hfresh.clean ⟨z, hmirrors.meets_of_required h hsub hy, hk z hy⟩
    | outOfSteps _ => exact Or.inl rfl
    | unbounded _ hun => exact absurd ⟨hfresh.weighted, hmade.weight_nonneg⟩ hun

/-- An edit variable is added and moved to its target. -/
theorem Registered.edit_ensures (h : e.Registered) (hsub : d.Sub e.demand) (hmirrors : Mirrors d s)
    (hfresh : s.Fresh) (z : Variable) {strength : Strength Rat}
    (hstrength : strength.clip.isRequired = false) (target : Rat) :
    (addEditVariable z strength >>= fun _ => suggestValue z target).Ensures s
      (fun _ s' => s'.Fresh) e.Refuses := by
  refine ensures_bind ((addEditVariable_ensures hfresh.sound z strength).mono ?_ ?_)
  · rintro - s' hadded
    obtain ⟨tag, hconstraints, -, -⟩ := hadded.constraints
    have hclean := hadded.clean hfresh.clean
    have hweighted : s'.Weighted := by
      refine hfresh.weighted.of_insert ?_ hconstraints
      rw [Constraint.strength_forEdit]
      exact strength.clip_nonneg
    refine (suggestValue_ensures hadded.sound z target).mono ?_ ?_
    · rintro - s'' hsuggested
      have hactive := hsuggested.constraints
      refine ⟨hsuggested.sound, hsuggested.clean hclean, fun label a ha => ?_⟩
      rw [hactive] at ha
      exact hweighted label a ha
    · intro err s'' hfail hdenial
      cases hfail with
      | unknown _ => cases hdenial
      | outOfSteps _ => exact Or.inl rfl
      | unmendable _ hnone =>
        -- the values that a clean tableau shows meet the constraints
        exact absurd ⟨_, hadded.sound.meets_iff.2 hclean.dummiesZero⟩ hnone
  · intro err s' hfail hdenial
    cases hfail with
    | duplicate _ => cases hdenial
    | required _ => cases hdenial
    | constraint _ _ hfail =>
      cases hfail with
      | duplicate _ => cases hdenial
      | contradiction _ hnone =>
        refine Or.inr ⟨rfl, ?_⟩
        rintro ⟨y, hy⟩
        obtain ⟨z', hz'⟩ := h.exists_lift y
        have hmeets := hmirrors.meets_of_required h hsub (h.required_congr hz' hy)
        refine hnone hfresh.clean ⟨z', hmeets, fun hreq => ?_⟩
        unfold Constraint.isRequired at hreq
        rw [Constraint.strength_forEdit, hstrength] at hreq
        cases hreq
      | outOfSteps _ => exact Or.inl rfl
      | unbounded _ hun =>
        refine absurd ⟨hfresh.weighted, ?_⟩ hun
        rw [Constraint.strength_forEdit]
        exact strength.clip_nonneg

/-- How a replay of registries that fit together may end. -/
theorem Registered.replay_ensures (h : e.Registered) (steps : Nat) :
    (enterAll e.vars e.constraints).Ensures (.empty steps)
      (fun _ s => Mirrors e.demand s ∧ s.Fresh)
      (fun err s => err.isDenial = false ∧ e.Refuses err s) := by
  refine h.enterAll_ensures Strength.graded ?_ ?_ steps (fresh_empty steps)
  · intro d s x entry hsub hmirrors hfresh hx
    have hfits := (h.vars x entry hx).2.2
    unfold VariableEntry.enter
    cases hpin : entry.pin with
    | some pin =>
      obtain ⟨hp, n, -, rfl⟩ := hfits.pin_eq_some hpin
      refine h.add_ensures hsub hmirrors hfresh ⟨_, _, _, _, rfl⟩ fun y hy _ => ?_
      exact Constraint.holds_pin.2 (hy.vars x entry hx (Priority.isRequired_iff.1 hp))
    | none =>
      have hp := hfits.pin_eq_none hpin
      exact h.edit_ensures hsub hmirrors hfresh x.backing (Strength.graded _ hp) entry.target
  · intro d s c entry hsub hmirrors hfresh hc hon
    obtain ⟨n, -, hbacking⟩ := (h.constraints c entry hc).2.2
    rw [hbacking]
    refine h.add_ensures hsub hmirrors hfresh ⟨_, _, _, _, rfl⟩ fun y hy hreq => ?_
    rw [Definition.isRequired_backing] at hreq
    exact Definition.holds_backing.2 (hy.constraints c entry hc hon (Priority.isRequired_iff.1 hreq))

/-- A solver that mirrors the registries shows values that meet what is required exactly if
its basic dummies are zero. -/
theorem Registered.required_iff (h : e.Registered) (hmirrors : Mirrors e.demand s) :
    (e.Required fun x => s.updateVariables.value x.backing) ↔ s.tableau.DummiesZero :=
  (hmirrors.meets_iff h).symm.trans hmirrors.arises.sound.1.meets_iff

/-- If they are, the values cost least. -/
theorem Registered.cost_le (h : e.Registered) (hmirrors : Mirrors e.demand s)
    (hzero : s.tableau.DummiesZero) {y : VariableId → Rat} (hy : e.Required y) :
    e.cost (fun x => s.updateVariables.value x.backing) ≤ e.cost y := by
  obtain ⟨hsound, hweighted⟩ := hmirrors.arises.sound
  obtain ⟨z, hz⟩ := h.exists_lift y
  have hmeets := (hmirrors.meets_iff h).2 (h.required_congr hz hy)
  rw [h.cost_congr hz, ← hmirrors.penalty_eq h hsound.toFormed,
    ← hmirrors.penalty_eq h hsound.toFormed]
  exact hsound.penalty_le hweighted hzero hmeets

/-- For all registries that an engine can reach, a replay that does not run out of steps
succeeds exactly if some values meet what is required, and reports a contradiction
otherwise. The values that it finds meet what is required at the least cost. -/
theorem replay_decides_and_optimizes (id : EngineId) (options : EngineOptions)
    (history : List (Command Rat)) (steps : Nat)
    (hsteps : replay steps ((Engine.create id options).after history).vars
      ((Engine.create id options).after history).constraints ≠ .error .outOfSteps) :
    let e := (Engine.create id options : Engine Rat).after history
    ((∃ s, replay steps e.vars e.constraints = .ok s) ↔ ∃ y, e.Required y) ∧
    (∀ err, replay steps e.vars e.constraints = .error err → err = .unsatisfiableConstraint) ∧
    ∀ s, replay steps e.vars e.constraints = .ok s →
      let value := fun x : VariableId => s.updateVariables.value x.backing
      e.Required value ∧ ∀ y, e.Required y → e.cost value ≤ e.cost y := by
  intro e
  have h : e.Registered := ((lawful_create id options).after Strength.graded history).registered
  obtain ⟨s, hs, hmirrors, hfresh⟩ | ⟨err, s, herr, hdenial, hrefuses⟩ :=
    replay_cases (h.replay_ensures steps)
  · have hzero := hfresh.clean.dummiesZero
    have hrequired := (h.required_iff hmirrors).2 hzero
    refine ⟨⟨fun _ => ⟨_, hrequired⟩, fun _ => ⟨s, hs⟩⟩, fun err herr => ?_, fun s' hs' => ?_⟩
    · rw [hs] at herr
      cases herr
    · rw [hs] at hs'
      cases hs'
      exact ⟨hrequired, fun y hy => h.cost_le hmirrors hzero hy⟩
  · obtain rfl | ⟨rfl, hnone⟩ := hrefuses hdenial
    · exact absurd herr hsteps
    · refine ⟨⟨?_, fun hy => absurd hy hnone⟩, fun err' herr' => ?_, ?_⟩
      · rintro ⟨s', hs'⟩
        rw [herr] at hs'
        cases hs'
      · rw [herr] at herr'
        cases herr'
        rfl
      · intro s' hs'
        rw [herr] at hs'
        cases hs'

/-- Two variables, the first of which has to stay 20 below the second, and a required bound
that the second one's target exceeds. -/
def bounded : List (Command Rat) :=
  let left : VariableId := ⟨⟨0⟩, 0⟩
  let right : VariableId := ⟨⟨0⟩, 1⟩
  [.createVariable 50 .p3, .createVariable 100 .p1,
    .createConstraint ⟨.ofTerms 20 [(left, 1)], .atMost, .ofUnknown right, .p0⟩ true,
    .createConstraint ⟨.ofUnknown right, .atMost, .ofConstant 60, .p0⟩ true]

/-- No values within the bounds cost less than those of the replay. -/
theorem replay_decides_and_optimizes_bounded :
    let e := (Engine.create ⟨0⟩ .default : Engine Rat).after bounded
    replay 9 e.vars e.constraints ≠ .error .outOfSteps ∧
      ∃ s, replay 9 e.vars e.constraints = .ok s ∧ ∀ y, e.Required y →
        e.cost (fun x => s.updateVariables.value x.backing) ≤ e.cost y := by
  intro e
  have hok : (replay 9 ((Engine.create ⟨0⟩ .default : Engine Rat).after bounded).vars
      ((Engine.create ⟨0⟩ .default).after bounded).constraints).isOk = true := by decide +kernel
  cases hreplay : replay 9 e.vars e.constraints with
  | error err =>
    rw [hreplay] at hok
    cases hok
  | ok s =>
    have hsteps : replay 9 e.vars e.constraints ≠ .error .outOfSteps := by
      rw [hreplay]
      intro heq
      cases heq
    obtain ⟨-, -, hbest⟩ := replay_decides_and_optimizes ⟨0⟩ .default bounded 9 hsteps
    exact ⟨fun heq => (by cases heq), s, rfl, (hbest s hreplay).2⟩

end Engine

end BoxLayout
