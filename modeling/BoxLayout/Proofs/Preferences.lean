-- SUMMARY: An engine in which only variables are required never loses its solver, unless a loop runs out of steps.
import BoxLayout.Proofs.Dummies
import BoxLayout.Proofs.Replay

/-!
# Preferences alone

Where no constraint is required, all that is required are the pins of variables. These are
about different variables, so they never contradict each other, and none follows from the
others. A solver for such a demand is always clean: a call of it fails only if a loop runs out
of steps.

So an engine whose constraints are preferences keeps its solver through every history.
-/

namespace BoxLayout

open Attempt Solver

/-! ## Loose demands -/

/-- Only pins are required, and they are about different variables. -/
structure Demand.Loose (d : Demand Rat) : Prop extends d.Fit where
  pins : ∀ x k, d.constraints (.var x) = some k →
    ∃ label target, k = .pin label x.backing target
  preferences : ∀ c k, d.constraints (.constraint c) = some k → k.isRequired = false
  pinsApart : ∀ x x' k k', d.constraints (.var x) = some k → d.constraints (.var x') = some k' →
    x.backing = x'.backing → x = x'

variable {d d' : Demand Rat} {s : Solver Rat} {o : Owner} {c : Constraint Rat} {x : VariableId}
  {w : Wish Rat} {label : Label} {a : Active Rat} {y : Variable → Rat}

theorem Demand.Loose.mono (h : d'.Loose)
    (hconstraints : ∀ o k, d.constraints o = some k → d'.constraints o = some k)
    (hwishes : ∀ x w, d.wishes x = some w → ∃ w', d'.wishes x = some w' ∧ w'.priority = w.priority) :
    d.Loose where
  toFit := h.toFit.mono hconstraints hwishes
  pins x k hk := h.pins x k (hconstraints _ k hk)
  preferences c k hk := h.preferences c k (hconstraints _ k hk)
  pinsApart x x' k k' hk hk' := h.pinsApart x x' k k' (hconstraints _ k hk) (hconstraints _ k' hk')

/-- What was asked for before is asked for with another constraint. -/
theorem Demand.constraints_of_withConstraint (ho : d.constraints o = none) {o' : Owner}
    {k : Constraint Rat} (hk : d.constraints o' = some k) :
    (d.withConstraint o (some c)).constraints o' = some k := by
  have hne : o' ≠ o := by
    rintro rfl
    rw [ho] at hk
    cases hk
  exact (Function.update_of_ne hne ..).trans hk

namespace Mirrors

/-- A required constraint is a pin. -/
theorem required_pin (h : Mirrors d s) (hd : d.Loose) (ha : s.constraints.get? label = some a)
    (hreq : a.constraint.isRequired = true) : ∃ x l target,
      d.constraints (.var x) = some a.constraint ∧ a.constraint = .pin l x.backing target := by
  cases label with
  | caller n =>
    obtain ⟨o, ho⟩ := h.asked n a ha
    cases o with
    | var x =>
      obtain ⟨l, target, hk⟩ := hd.pins x _ ho
      exact ⟨x, l, target, ho, hk⟩
    | constraint c =>
      rw [hd.preferences c _ ho] at hreq
      cases hreq
  | edit n =>
    obtain ⟨x, w, f, hw, hf, hfa⟩ := h.backed n a ha
    obtain ⟨m, tag, -, hf', -⟩ := h.edited x w hw
    rw [hf] at hf'
    obtain rfl := Option.some.inj hf'
    unfold Constraint.isRequired at hreq
    rw [← hfa, Constraint.strength_forEdit, Strength.clip_ofPriority,
      Strength.isRequired_ofPriority, hd.preferred x w hw] at hreq
    cases hreq

/-- Moving the value of one variable leaves the pins of the other ones met. -/
theorem holds_update (h : Mirrors d s) (hd : d.Loose) (hy : s.Meets y)
    (ha : s.constraints.get? label = some a) (hreq : a.constraint.isRequired = true) {z : Variable}
    (hz : ∀ x, d.constraints (.var x) = some a.constraint → x.backing ≠ z) (v : Rat) :
    a.constraint.Holds (Function.update y z v) := by
  obtain ⟨x, l, target, hx, hpin⟩ := h.required_pin hd ha hreq
  have hmet := hy label a ha hreq
  rw [hpin, Constraint.holds_pin] at hmet ⊢
  rw [Function.update_of_ne (hz x hx), hmet]

/-- Each pin can be violated while the other ones are met. -/
theorem independent (h : Mirrors d s) (hd : d.Loose) (hy : s.Meets y) : s.Independent := by
  intro label a ha hreq
  obtain ⟨x, l, target, hx, hpin⟩ := h.required_pin hd ha hreq
  refine ⟨Function.update y x.backing (target + 1), fun label' a' ha' hreq' => ?_, ?_⟩
  · obtain ⟨hne, ha'⟩ := of_strike ha'
    refine h.holds_update hd hy ha' hreq' (fun x' hx' hback => hne ?_) _
    obtain rfl := hd.pinsApart x' x _ _ hx' hx hback
    rw [hx] at hx'
    rw [← h.labelled label a ha, ← h.labelled label' a' ha', Option.some.inj hx']
  · rw [hpin, Constraint.holds_pin, Function.update_self]
    exact fun heq => absurd heq (by simp)

end Mirrors

/-! ## Tidy solvers -/

/-- The solver mirrors the demand, and its basic dummies are combinations of dummies. -/
structure Tidy (d : Demand Rat) (s : Solver Rat) : Prop extends Mirrors d s where
  clean : s.tableau.Clean

namespace Tidy

theorem sound (h : Tidy d s) : s.Sound := h.arises.sound.1

theorem weighted (h : Tidy d s) : s.Weighted := h.arises.sound.2

/-- The values that the tableau shows meet what is required. -/
theorem meets (h : Tidy d s) : s.Meets s.updateVariables.value :=
  h.sound.meets_iff.2 h.clean.dummiesZero

theorem undummied (h : Tidy d s) (hd : d.Loose) : s.tableau.Undummied :=
  h.sound.undummied h.clean (h.toMirrors.independent hd h.meets)

/-- What is asked for in addition can be met together with the rest. -/
theorem exists_meets (h : Tidy d s) (ho : d.constraints o = none)
    (hd : (d.withConstraint o (some c)).Loose) :
    ∃ y, s.Meets y ∧ (c.isRequired = true → c.Holds y) := by
  have hheld : (d.withConstraint o (some c)).constraints o = some c := Function.update_self ..
  cases o with
  | constraint k =>
    refine ⟨_, h.meets, fun hreq => ?_⟩
    rw [hd.preferences k c hheld] at hreq
    cases hreq
  | var x =>
    have hold : d.Loose := hd.mono (fun _ _ hk => Demand.constraints_of_withConstraint ho hk)
      fun _ w hw => ⟨w, hw, rfl⟩
    obtain ⟨l, target, rfl⟩ := hd.pins x c hheld
    refine ⟨Function.update s.updateVariables.value x.backing target, fun label a ha hreq => ?_,
      fun _ => Constraint.holds_pin.2 (Function.update_self ..)⟩
    refine h.holds_update hold h.meets ha hreq (fun x' hx' hback => ?_) target
    obtain rfl := hd.pinsApart x' x _ _ (Demand.constraints_of_withConstraint ho hx') hheld hback
    rw [ho] at hx'
    cases hx'

theorem hold (h : Tidy d s) (ho : d.constraints o = none)
    (hd : (d.withConstraint o (some c)).Loose) :
    (addConstraint c).Ensures s (fun _ s' => Tidy (d.withConstraint o (some c)) s')
      fun err _ => err = .outOfSteps := by
  refine ((h.toMirrors.hold ho hd.toFit).and (addConstraint_ensures h.sound c)).mono ?_ ?_
  · rintro - s' ⟨hmirrors, hadded⟩
    exact ⟨hmirrors, hadded.clean h.clean⟩
  · rintro err s' ⟨hdenial, hfail⟩
    cases hfail with
    | duplicate _ => cases hdenial
    | contradiction _ hnone => exact absurd (h.exists_meets ho hd) (hnone h.clean)
    | outOfSteps _ => rfl
    | unbounded _ hun =>
      exact absurd ⟨h.weighted, (hd.made o c (Function.update_self ..)).weight_nonneg⟩ hun

/-- Removing a constraint that is there fails only if a loop runs out of steps. -/
theorem eq_outOfSteps (h : Tidy d s) {err : SolverError} {s' : Solver Rat}
    (hfail : RemoveFailure s label err s') (hdenial : err.isDenial = false) : err = .outOfSteps := by
  cases hfail with
  | unknown _ => cases hdenial
  | outOfSteps _ => rfl
  | unbounded _ hun => exact absurd h.weighted hun

theorem drop (h : Tidy d s) (hd : d.Loose) (ho : d.constraints o = some c) :
    (removeConstraint c.label).Ensures s (fun _ s' => Tidy (d.withConstraint o none) s')
      fun err _ => err = .outOfSteps := by
  refine (((h.toMirrors.drop hd.toFit ho).and (removeConstraint_ensures h.sound c.label)).and
    (removeConstraint_undummied (h.undummied hd) c.label)).mono ?_ ?_
  · rintro - s' ⟨⟨hmirrors, -⟩, hundummied⟩
    exact ⟨hmirrors, hundummied.clean⟩
  · rintro err s' ⟨⟨hdenial, hfail⟩, -⟩
    exact h.eq_outOfSteps hfail hdenial

theorem addWish (h : Tidy d s) {p : Priority} (hx : d.wishes x = none)
    (hd : (d.withWish x (some ⟨p, 0⟩)).Loose) :
    (addEditVariable x.backing (.ofPriority p)).Ensures s
      (fun _ s' => Tidy (d.withWish x (some ⟨p, 0⟩)) s') fun err _ => err = .outOfSteps := by
  refine ((h.toMirrors.addWish Strength.graded hx hd.toFit).and
    (addEditVariable_ensures h.sound x.backing (.ofPriority p))).mono ?_ ?_
  · rintro - s' ⟨hmirrors, hadded⟩
    exact ⟨hmirrors, hadded.clean h.clean⟩
  · rintro err s' ⟨hdenial, hfail⟩
    cases hfail with
    | duplicate _ => cases hdenial
    | required _ => cases hdenial
    | constraint _ _ hfail =>
      cases hfail with
      | duplicate _ => cases hdenial
      | contradiction _ hnone =>
        refine absurd ⟨_, h.meets, fun hreq => ?_⟩ (hnone h.clean)
        have hp := hd.preferred x ⟨p, 0⟩ (Function.update_self ..)
        unfold Constraint.isRequired at hreq
        rw [Constraint.strength_forEdit, Strength.graded p hp] at hreq
        cases hreq
      | outOfSteps _ => rfl
      | unbounded _ hun =>
        refine absurd ⟨h.weighted, ?_⟩ hun
        rw [Constraint.strength_forEdit]
        exact Strength.clip_nonneg _

theorem move (h : Tidy d s) (hd : d.Loose) (hx : d.wishes x = some w) (target : Rat) :
    (suggestValue x.backing target).Ensures s
      (fun _ s' => Tidy (d.withWish x (some { w with target := target })) s')
      fun err _ => err = .outOfSteps := by
  refine ((h.toMirrors.move hd.toFit hx target).and
    (suggestValue_ensures h.sound x.backing target)).mono ?_ ?_
  · rintro - s' ⟨hmirrors, hsuggested⟩
    exact ⟨hmirrors, hsuggested.clean h.clean⟩
  · rintro err s' ⟨hdenial, hfail⟩
    cases hfail with
    | unknown _ => cases hdenial
    | outOfSteps _ => rfl
    | unmendable _ hnone => exact absurd ⟨_, h.meets⟩ hnone

theorem unwish (h : Tidy d s) (hd : d.Loose) (hx : d.wishes x = some w) :
    (removeEditVariable x.backing).Ensures s (fun _ s' => Tidy (d.withWish x none) s')
      fun err _ => err = .outOfSteps := by
  refine (((h.toMirrors.unwish hd.toFit hx).and (removeEditVariable_ensures h.sound x.backing)).and
    (removeEditVariable_undummied (h.undummied hd) x.backing)).mono ?_ ?_
  · rintro - s' ⟨⟨hmirrors, -⟩, hundummied⟩
    exact ⟨hmirrors, hundummied.clean⟩
  · rintro err s' ⟨⟨hdenial, hfail⟩, -⟩
    cases hfail with
    | unknown _ => cases hdenial
    | constraint _ _ _ _ hfail => exact h.eq_outOfSteps hfail hdenial

/-- A solver for a loose demand is kept tidy, and is lost only if a loop runs out of steps. -/
theorem upkeep : Upkeep Demand.Loose Tidy (fun err => err = .outOfSteps) where
  retarget _ hd := hd.mono (fun _ _ hk => hk) fun _ _ hv => Demand.wishes_retarget hv
  hold h ho hd := h.hold ho hd
  drop h hd ho := h.drop hd ho
  addWish h hx hd := h.addWish hx hd
  move h hd hx target := h.move hd hx target
  unwish h hd hx := h.unwish hd hx

theorem updateVariables (h : Tidy d s) : Tidy d s.updateVariables :=
  ⟨h.toMirrors.updateVariables, h.clean⟩

end Tidy

/-! ## Engines without required constraints -/

/-- The write states no required constraint. -/
def Write.Unforced : Write Rat → Prop
  | state _ d _ => d.priority ≠ .p0
  | _ => True

namespace Engine

variable {e : Engine Rat} {w : Write Rat} {c : ConstraintId} {k : Definition Rat}

/-- No constraint is required, be it enabled or not. -/
def Unforced (e : Engine Rat) : Prop :=
  ∀ c entry, e.constraints.entries.get? c = some entry → entry.definition.priority ≠ .p0

namespace Unforced

theorem loose (h : e.Unforced) (hreg : e.Registered) : e.demand.Loose where
  toFit := hreg.fit
  pins x k hk := by
    obtain ⟨entry, hx, hpin⟩ := Option.bind_eq_some_iff.1 hk
    obtain ⟨-, n, -, rfl⟩ := (hreg.vars x entry hx).2.2.pin_eq_some hpin
    exact ⟨_, _, rfl⟩
  preferences c k hk := by
    obtain ⟨entry, hc, -, rfl⟩ := demand_constraint_iff.1 hk
    obtain ⟨n, -, hbacking⟩ := (hreg.constraints c entry hc).2.2
    rw [hbacking, Definition.isRequired_backing]
    exact decide_eq_false (h c entry hc)
  pinsApart x x' k k' hk hk' hback := by
    obtain ⟨entry, hx, -⟩ := Option.bind_eq_some_iff.1 hk
    obtain ⟨entry', hx', -⟩ := Option.bind_eq_some_iff.1 hk'
    exact hreg.backing_injective hx hx' hback

/-- The targets of the variables meet what is required. -/
theorem exists_required (h : e.Unforced) : ∃ y, e.Required y := by
  refine ⟨fun x => ((e.vars.entries.get? x).map VariableEntry.target).getD 0, fun x entry hx _ => ?_,
    fun c entry hc _ hp => absurd hp (h c entry hc)⟩
  rw [hx]
  rfl

/-- Registering a constraint that is not required, or taking one out. -/
theorem update (h : e.Unforced) {e' : Engine Rat} {entry : Option (ConstraintEntry Rat)}
    (hget : e'.constraints.entries.get? = Function.update e.constraints.entries.get? c entry)
    (hentry : ∀ k, entry = some k → k.definition.priority ≠ .p0) : e'.Unforced := by
  intro c' k hk
  rw [hget] at hk
  by_cases hcc : c' = c
  · subst hcc
    rw [Function.update_self] at hk
    exact hentry k hk
  · rw [Function.update_of_ne hcc] at hk
    exact h c' k hk

theorem record (h : e.Unforced) (hw : w.Unforced) : (w.record e).Unforced := by
  cases w with
  | want x p target => exact h
  | move x target =>
    cases hx : e.vars.entries.get? x with
    | none =>
      rw [Write.record_move_unknown hx]
      exact h
    | some entry =>
      rw [Write.record_move hx]
      exact h
  | forget x => exact h
  | state c d enabled =>
    refine h.update (e.constraints.get?_put c _) ?_
    rintro _ ⟨⟩
    exact hw
  | switch c enabled =>
    cases hc : e.constraints.entries.get? c with
    | none =>
      rw [Write.record_switch_unknown hc]
      exact h
    | some entry =>
      rw [Write.record_switch hc]
      refine h.update (e.constraints.get?_put c _) ?_
      rintro _ ⟨⟩
      exact h c entry hc
  | retract c =>
    refine h.update (e.constraints.get?_erase c) ?_
    rintro _ ⟨⟩

/-- What a call has stated is registered after it. -/
theorem of_stated {enabled : Bool} (h : (e.carryOut [.state c k enabled]).Unforced) :
    k.priority ≠ .p0 := by
  refine h c ⟨k, enabled, k.backing (.caller e.labels)⟩ ?_
  rw [carryOut_singleton]
  change (Engine.apply _ _).constraints.entries.get? c = _
  rw [apply_constraints]
  exact e.constraints.get?_put_self c _

/-- All that a call states is there after it, or has been there before. -/
theorem writes (h : e.Unforced) {command : Command Rat} (hafter : (command.effect e).Unforced)
    (hw : w ∈ command.writes e) : w.Unforced := by
  obtain ⟨first, rest, hws⟩ := List.exists_cons_of_ne_nil (List.ne_nil_of_mem hw)
  have hfirst := Command.writesFirst hws
  rw [Command.effect_of_writes hws] at hafter
  rw [hws] at hw
  rcases List.mem_cons.1 hw with rfl | hrest
  · cases hfirst with
    | state | restate => exact hafter.of_stated
    | _ => trivial
  · obtain ⟨c, entry, hc, rfl⟩ := hfirst.restates hrest
    exact h c entry hc

end Unforced

/-! ## Keeping the solver -/

/-- No constraint is required, a live solver is tidy, and the engine has never lost its solver
or has run out of steps. -/
structure Steady (e : Engine Rat) : Prop where
  registered : e.Registered
  unforced : e.Unforced
  tidy : ∀ s, e.solver = some s → Tidy e.demand s
  spared : e.health.lastError = some .outOfSteps ∨
    e.health.lastError = none ∧ e.isLive = true ∧ e.health.invalidations = 0

namespace Steady

theorem write (h : e.Steady) (hw : w.Proper e) (hunforced : w.Unforced) : (e.write w).Steady := by
  have hafter := h.unforced.record hunforced
  have hkept : (e.write w).Unforced := by
    unfold Unforced
    rw [write_constraints]
    exact hafter
  obtain ⟨hsolver, -, -, hhealth, -⟩ := w.record_rest e
  obtain ⟨hnone, hwrite⟩ | ⟨s', -, hwrite, htidy⟩ | ⟨cause, -, hwrite, hcause⟩ :=
    Tidy.upkeep.write_cases h.registered hw (h.unforced.loose h.registered)
      (hafter.loose (h.registered.record hw)) h.tidy
  · refine ⟨h.registered.write hw, hkept, fun s hs => ?_, ?_⟩
    · rw [hwrite, hsolver, hnone] at hs
      cases hs
    · rw [hwrite, isLive, hsolver, hhealth]
      exact h.spared
  · refine ⟨h.registered.write hw, hkept, fun s hs => ?_, ?_⟩
    · rw [demand_write]
      rw [hwrite] at hs
      cases hs
      exact htidy
    · rw [hwrite, isLive]
      dsimp only
      rw [hhealth]
      exact h.spared.imp_right fun hnever => ⟨hnever.1, rfl, hnever.2.2⟩
  · refine ⟨h.registered.write hw, hkept, fun s hs => ?_, ?_⟩
    · rw [hwrite, invalidate_solver] at hs
      cases hs
    · rw [hwrite, invalidate_health, hcause]
      exact Or.inl rfl

theorem writeAll (h : e.Steady) {ws : List (Write Rat)} (hws : e.AllProper ws)
    (hunforced : ∀ w ∈ ws, w.Unforced) : (e.writeAll ws).Steady := by
  induction ws generalizing e with
  | nil => exact h
  | cons w ws ih =>
    exact ih (h.write hws.1 (hunforced w List.mem_cons_self)) hws.2
      fun w' hw' => hunforced w' (List.mem_cons_of_mem _ hw')

theorem carryOut (h : e.Steady) {ws : List (Write Rat)} (hws : e.AllProper ws)
    (hunforced : ∀ w ∈ ws, w.Unforced) : (e.carryOut ws).Steady := by
  cases ws with
  | nil => exact h
  | cons w ws =>
    have hall := h.writeAll hws hunforced
    exact ⟨hall.registered.markChanged, hall.unforced, hall.tidy, hall.spared⟩

/-- A replay leaves a tidy solver, or runs out of steps. -/
theorem replay_cases (h : e.Steady) (steps : Nat) :
    (∃ s, replay steps e.vars e.constraints = .ok s ∧ Tidy e.demand s) ∨
      replay steps e.vars e.constraints = .error .outOfSteps := by
  obtain ⟨s, hs, hmirrors, hfresh⟩ | ⟨err, s, herr, hdenial, hrefuses⟩ :=
    Engine.replay_cases (h.registered.replay_ensures steps)
  · exact Or.inl ⟨s, hs, hmirrors, hfresh.clean⟩
  · obtain rfl | ⟨-, hnone⟩ := hrefuses hdenial
    · exact Or.inr herr
    · exact absurd h.unforced.exists_required hnone

theorem ensureLive (h : e.Steady) : e.ensureLive.Steady := by
  have hkept : e.ensureLive.Unforced := by
    unfold Unforced
    rw [e.ensureLive_registries.2.2.1]
    exact h.unforced
  obtain ⟨-, hlive⟩ | ⟨hnone, s, hreplay, hlive⟩ | ⟨hnone, cause, hreplay, hlive⟩ :=
    e.ensureLive_cases
  · rw [hlive]
    exact h
  · refine ⟨h.registered.ensureLive, hkept, fun s' hs' => ?_, ?_⟩
    · rw [hlive, (adopt_fields s e).2.2.2.2.1] at hs'
      cases hs'
      rw [ensureLive_demand]
      obtain ⟨s', hs', htidy⟩ | herr := h.replay_cases e.options.steps
      · rw [hreplay] at hs'
        cases hs'
        exact htidy
      · rw [hreplay] at herr
        cases herr
    · rw [hlive, adopt_health]
      refine h.spared.imp_right fun hnever => ?_
      have hlive := hnever.2.1
      rw [isLive, hnone] at hlive
      cases hlive
  · refine ⟨h.registered.ensureLive, hkept, fun s' hs' => ?_, ?_⟩
    · rw [hlive, (failRebuild_fields cause e).2.2.2.2, hnone] at hs'
      cases hs'
    · rw [hlive, failRebuild_health]
      obtain ⟨s, hs, -⟩ | herr := h.replay_cases e.options.steps
      · rw [hreplay] at hs
        cases hs
      · rw [hreplay] at herr
        exact Or.inl (congrArg some (Except.error.inj herr))

theorem readValues (h : e.Steady) : e.readValues.Steady := by
  obtain ⟨hreg, hd⟩ := h.registered.readValues
  obtain ⟨-, hread⟩ | ⟨s, -, hs, hread⟩ := e.readValues_cases
  · rw [hread]
    exact h
  · refine ⟨hreg, ?_, ?_, ?_⟩
    · rw [hread]
      exact h.unforced
    · rw [hd, hread]
      intro s' hs'
      cases hs'
      exact (h.tidy s hs).updateVariables
    · rw [hread]
      exact h.spared.imp_right fun hnever => ⟨hnever.1, rfl, hnever.2.2⟩

theorem refresh (h : e.Steady) : e.refresh.Steady := h.ensureLive.readValues

theorem create (id : EngineId) (options : EngineOptions) :
    (Engine.create id options : Engine Rat).Steady where
  registered := .create id options
  unforced _ _ hc := by cases hc
  tidy s hs := by
    cases hs
    have hmirrors := (lawful_create id options).follows (.empty options.steps : Solver Rat) rfl
    exact ⟨hmirrors, (fresh_empty options.steps).clean⟩
  spared := Or.inr ⟨rfl, rfl, rfl⟩

/-- A call that leaves no required constraint behind leaves the engine steady. -/
theorem perform (h : e.Steady) (command : Command Rat) (hafter : (command.perform e).2.Unforced) :
    (command.perform e).2.Steady := by
  obtain ⟨err, -, hperform⟩ | ⟨-, hperform, hproper⟩ := h.registered.perform_cases command
  · rw [hperform]
    exact h
  rw [hperform] at hafter ⊢
  have hcarried := h.carryOut hproper fun w hw => h.unforced.writes hafter hw
  cases command with
  | read x => exact h.refresh
  | takeDirty => exact ⟨h.registered.congr rfl rfl rfl rfl, h.unforced, h.tidy, h.spared⟩
  | listen => exact ⟨h.registered.congr rfl rfl rfl rfl, h.unforced, h.tidy, h.spared⟩
  | stopListening => exact ⟨h.registered.congr rfl rfl rfl rfl, h.unforced, h.tidy, h.spared⟩
  | _ => exact hcarried

/-- So does a history on the way of which there is none. -/
theorem after (h : e.Steady) (history : List (Command Rat))
    (hunforced : ∀ earlier, earlier <+: history → (e.after earlier).Unforced) :
    (e.after history).Steady := by
  induction history generalizing e with
  | nil => exact h
  | cons command history ih =>
    refine ih (h.perform command (hunforced [command] ?_)) fun earlier hearlier => ?_
    · exact List.prefix_append [command] history
    · exact hunforced (command :: earlier) ((List.prefix_cons_inj command).2 hearlier)

end Steady

end Engine

end BoxLayout
