-- SUMMARY: Reading values in between is invisible to the mutations, and to later reads while the solver is kept.
import BoxLayout.Proofs.Lawful
import BoxLayout.Proofs.Oblivious
import BoxLayout.Scalar.Exact

/-!
# Reads are invisible

Two engines are compared, one that is read in between and one that is not. Their registries
stay the same, solved values apart, whatever the reads do to the solver: what a call is
refused for, answers and writes depends on the registries alone.

As long as the solver is not dropped, both engines have the same solver, apart from the
values that were read. Then they show the same values as well, however many optima there are.
-/

namespace BoxLayout

open Attempt

namespace Engine

variable {α : Type} [Scalar α]

/-! ## The registries by themselves -/

/-- The variables without their solved values. -/
def unsolved (vars : VariableRegistry α) : VariableRegistry α :=
  vars.mapEntries fun _ entry => { entry with solved := 0 }

/-- The registries of an engine and the mark for the caller, and nothing else. -/
def bare (e : Engine α) : Engine α :=
  { Engine.create e.id e.options with
    vars := unsolved e.vars
    constraints := e.constraints
    labels := e.labels
    dirty := e.dirty }

variable {e e' : Engine α} {c : Command α} {w : Write α}

theorem get?_bare (e : Engine α) (x : VariableId) : e.bare.vars.entries.get? x
    = (e.vars.entries.get? x).map fun entry => { entry with solved := 0 } :=
  OrderedMap.get?_mapValues _ _ _

theorem refusal_bare (e : Engine α) (c : Command α) : c.refusal e.bare = c.refusal e := by
  have hregisters (g : AnyHandle) : e.bare.registers g = e.registers g := by
    obtain ⟨kind, h⟩ := g
    cases kind with
    | var =>
      unfold registers OrderedMap.contains
      dsimp only
      rw [get?_bare, Option.isSome_map]
    | constraint => rfl
  have hfault : e.bare.fault = e.fault := by
    funext g
    unfold fault
    rw [hregisters]
    rfl
  have hhindrance : c.hindrance e.bare = c.hindrance e := by cases c <;> rfl
  unfold Command.refusal
  rw [hfault, hhindrance]

theorem writes_bare (e : Engine α) (c : Command α) : c.writes e.bare = c.writes e := by
  cases c with
  | suggest x target =>
    unfold Command.writes
    dsimp only
    rw [get?_bare]
    cases e.vars.entries.get? x <;> rfl
  | setVariablePriority x p =>
    unfold Command.writes
    dsimp only
    rw [get?_bare]
    cases e.vars.entries.get? x <;> rfl
  | _ => rfl

/-- The command reads the value of a variable. -/
def Command.isRead : Command α → Bool
  | read _ => true
  | _ => false

theorem reply_bare (e : Engine α) (hc : c.isRead = false) : c.reply e.bare = c.reply e := by
  cases c with
  | read x => cases hc
  | priorityOf x =>
    unfold Command.reply
    dsimp only
    rw [get?_bare, Option.map_map]
    rfl
  | targetOf x =>
    unfold Command.reply
    dsimp only
    rw [get?_bare, Option.map_map]
    rfl
  | listVariables =>
    refine congrArg Reply.handles ?_
    exact OrderedMap.keys_mapValues _ _
  | _ => rfl

theorem change_bare (e : Engine α) (w : Write α) : w.change e.bare = w.change e := by
  cases w with
  | want x p target =>
    unfold Write.change
    dsimp only
    rw [get?_bare]
    cases e.vars.entries.get? x <;> rfl
  | forget x =>
    unfold Write.change
    dsimp only
    rw [get?_bare]
    cases e.vars.entries.get? x <;> rfl
  | _ => rfl

/-! ### Writing variables without their solved values -/

theorem unsolved_unsolved (vars : VariableRegistry α) : unsolved (unsolved vars) = unsolved vars := by
  unfold unsolved Registry.mapEntries OrderedMap.mapValues
  simp only [List.map_map]
  rfl

theorem unsolved_put (vars : VariableRegistry α) (x : VariableId) (entry : VariableEntry α) :
    unsolved (vars.put x entry) = (unsolved vars).put x { entry with solved := 0 } := by
  unfold unsolved Registry.mapEntries Registry.put
  rw [OrderedMap.mapValues_insert]

theorem unsolved_enroll (vars : VariableRegistry α) (x : VariableId) (entry : VariableEntry α) :
    unsolved (vars.enroll x entry) = (unsolved vars).enroll x { entry with solved := 0 } := by
  unfold Registry.enroll
  rw [← unsolved_put]
  rfl

theorem unsolved_strike (vars : VariableRegistry α) (x : VariableId) :
    unsolved (vars.strike x) = (unsolved vars).strike x := by
  unfold unsolved Registry.mapEntries Registry.strike
  rw [OrderedMap.mapValues_erase]

theorem bare_congr (e : Engine α) {vars vars' : VariableRegistry α} (h : unsolved vars = unsolved vars')
    (constraints : ConstraintRegistry α) (labels : Nat) :
    ({ e.bare with vars := vars, constraints := constraints, labels := labels } : Engine α).bare
      = ({ e with vars := vars', constraints := constraints, labels := labels } : Engine α).bare := by
  unfold bare
  dsimp only [Engine.create]
  rw [h]

/-- Solved values have no part in what a write records. -/
theorem record_bare (e : Engine α) (w : Write α) : (w.record e.bare).bare = (w.record e).bare := by
  have hsame : unsolved e.bare.vars = unsolved e.vars := unsolved_unsolved e.vars
  cases w with
  | want x p target =>
    refine bare_congr e ?_ e.constraints (e.labels + 1)
    rw [unsolved_enroll, unsolved_enroll, get?_bare, hsame]
    rfl
  | move x target =>
    cases hx : e.vars.entries.get? x with
    | some entry =>
      have hbare : e.bare.vars.entries.get? x = some { entry with solved := 0 } := by
        rw [get?_bare, hx]
        rfl
      rw [Write.record_move hx, Write.record_move hbare]
      refine bare_congr e ?_ e.constraints e.labels
      rw [unsolved_put, unsolved_put, hsame]
    | none =>
      have hbare : e.bare.vars.entries.get? x = none := by
        rw [get?_bare, hx]
        rfl
      rw [Write.record_move_unknown hx, Write.record_move_unknown hbare]
      exact bare_congr e hsame e.constraints e.labels
  | forget x =>
    refine bare_congr e ?_ e.constraints e.labels
    rw [unsolved_strike, unsolved_strike, hsame]
  | state c d enabled => exact bare_congr e hsame _ (e.labels + 1)
  | switch c enabled =>
    cases hc : e.constraints.entries.get? c with
    | some entry =>
      have hbare : e.bare.constraints.entries.get? c = some entry := hc
      rw [Write.record_switch hc, Write.record_switch hbare]
      exact bare_congr e hsame _ e.labels
    | none =>
      have hbare : e.bare.constraints.entries.get? c = none := hc
      rw [Write.record_switch_unknown hc, Write.record_switch_unknown hbare]
      exact bare_congr e hsame e.constraints e.labels
  | retract c => exact bare_congr e hsame _ e.labels

/-! ### What only touches the solver -/

omit [Scalar α] in
theorem apply_rest (m : Attempt SolverError (Solver α) Unit) (e : Engine α) :
    (e.apply m).options = e.options ∧ (e.apply m).dirty = e.dirty := by
  obtain ⟨-, h⟩ | ⟨s, s', -, -, h⟩ | ⟨s, cause, s', -, -, h⟩ := e.apply_cases m
  · rw [h]
    exact ⟨rfl, rfl⟩
  · rw [h]
    exact ⟨rfl, rfl⟩
  · rw [h]
    unfold invalidate emit
    dsimp only
    split <;> exact ⟨rfl, rfl⟩

theorem bare_apply (m : Attempt SolverError (Solver α) Unit) (e : Engine α) :
    (e.apply m).bare = e.bare := by
  obtain ⟨hid, hvars, hconstraints, hlabels⟩ := apply_registries m e
  obtain ⟨hoptions, hdirty⟩ := apply_rest m e
  unfold bare
  rw [hid, hvars, hconstraints, hlabels, hoptions, hdirty]

theorem bare_ensureLive (e : Engine α) : e.ensureLive.bare = e.bare := by
  obtain ⟨-, h⟩ | ⟨-, s, -, h⟩ | ⟨-, cause, -, h⟩ := e.ensureLive_cases
  · rw [h]
  · rw [h]
    unfold adopt emit
    dsimp only
    split <;> rfl
  · rw [h]
    unfold failRebuild emit
    dsimp only
    split <;> rfl

theorem bare_readValues (e : Engine α) : e.readValues.bare = e.bare := by
  obtain ⟨-, h⟩ | ⟨s, -, -, h⟩ := e.readValues_cases
  · rw [h]
  · have hsame (f : VariableId → VariableEntry α → α) : unsolved (e.vars.mapEntries fun x entry =>
        { entry with solved := f x entry }) = unsolved e.vars := by
      unfold unsolved Registry.mapEntries OrderedMap.mapValues
      simp only [List.map_map]
      rfl
    rw [h]
    unfold bare
    dsimp only
    rw [hsame]

theorem bare_refresh (e : Engine α) : e.refresh.bare = e.bare :=
  (bare_readValues _).trans (bare_ensureLive _)

/-! ## Alike engines -/

/-- The engines differ in their solvers and solved values at most, and in what they record
about them. -/
def Alike (e e' : Engine α) : Prop := e.bare = e'.bare

namespace Alike

theorem refusal (h : e.Alike e') (c : Command α) : c.refusal e = c.refusal e' := by
  rw [← refusal_bare e, h, refusal_bare]

theorem writes (h : e.Alike e') (c : Command α) : c.writes e = c.writes e' := by
  rw [← writes_bare e, h, writes_bare]

theorem reply (h : e.Alike e') (hc : c.isRead = false) : c.reply e = c.reply e' := by
  rw [← reply_bare e hc, h, reply_bare e' hc]

theorem change (h : e.Alike e') (w : Write α) : w.change e = w.change e' := by
  rw [← change_bare e, h, change_bare]

theorem record (h : e.Alike e') (w : Write α) : (w.record e).Alike (w.record e') := by
  unfold Alike
  rw [← record_bare e, h, record_bare]

theorem write (h : e.Alike e') (w : Write α) : (e.write w).Alike (e'.write w) := by
  unfold Alike Engine.write
  rw [bare_apply, bare_apply]
  exact h.record w

/-- Alike engines are still alike after the caller's mark is changed in both. -/
theorem mark (h : e.Alike e') (dirty : Bool) :
    ({ e with dirty := dirty } : Engine α).Alike { e' with dirty := dirty } := by
  change ({ e.bare with dirty := dirty } : Engine α) = { e'.bare with dirty := dirty }
  rw [show e.bare = e'.bare from h]

theorem markChanged (h : e.Alike e') : e.markChanged.Alike e'.markChanged := h.mark true

theorem carryOut (h : e.Alike e') (ws : List (Write α)) : (e.carryOut ws).Alike (e'.carryOut ws) := by
  have hall (ws : List (Write α)) : ∀ {e e' : Engine α}, e.Alike e' →
      (e.writeAll ws).Alike (e'.writeAll ws) := by
    induction ws with
    | nil => exact fun h => h
    | cons w ws ih => exact fun h => ih (h.write w)
  cases ws with
  | nil => exact h
  | cons w ws => exact (hall (w :: ws) h).markChanged

theorem effect (h : e.Alike e') (c : Command α) : (c.effect e).Alike (c.effect e') := by
  have hcarried : (e.carryOut (c.writes e)).Alike (e'.carryOut (c.writes e')) := by
    rw [h.writes c]
    exact h.carryOut _
  cases c with
  | read x =>
    unfold Alike Command.effect
    rw [bare_refresh, bare_refresh]
    exact h
  | takeDirty => exact h.mark false
  | listen => exact h
  | stopListening => exact h
  | _ => exact hcarried

/-- Both engines refuse a call that is no read, or both give the same answer. -/
theorem perform (h : e.Alike e') (hreg : e.Registered) (hreg' : e'.Registered)
    (hc : c.isRead = false) : (c.perform e).1 = (c.perform e').1 := by
  obtain ⟨err, hrefusal, hperform⟩ | ⟨hrefusal, hperform, -⟩ := hreg.perform_cases c
  · obtain ⟨err', hrefusal', hperform'⟩ | ⟨hrefusal', -⟩ := hreg'.perform_cases c
    · rw [hperform, hperform']
      rw [← h.refusal, hrefusal] at hrefusal'
      cases hrefusal'
      rfl
    · rw [← h.refusal, hrefusal] at hrefusal'
      cases hrefusal'
  · obtain ⟨err', hrefusal', -⟩ | ⟨hrefusal', hperform', -⟩ := hreg'.perform_cases c
    · rw [← h.refusal, hrefusal] at hrefusal'
      cases hrefusal'
    · rw [hperform, hperform', h.reply hc]

theorem step (h : e.Alike e') (hreg : e.Registered) (hreg' : e'.Registered) (c : Command α) :
    ((c.perform e).2).Alike (c.perform e').2 := by
  obtain ⟨err, hrefusal, hperform⟩ | ⟨hrefusal, hperform, -⟩ := hreg.perform_cases c
  · obtain ⟨err', hrefusal', hperform'⟩ | ⟨hrefusal', -⟩ := hreg'.perform_cases c
    · rw [hperform, hperform']
      exact h
    · rw [← h.refusal, hrefusal] at hrefusal'
      cases hrefusal'
  · obtain ⟨err', hrefusal', -⟩ | ⟨hrefusal', hperform', -⟩ := hreg'.perform_cases c
    · rw [← h.refusal, hrefusal] at hrefusal'
      cases hrefusal'
    · rw [hperform, hperform']
      exact h.effect c

/-- A read leaves an engine that is alike. -/
theorem read (h : e.Alike e') (hreg' : e'.Registered) (x : VariableId) :
    e.Alike ((Command.read x).perform e').2 := by
  obtain ⟨err, -, hperform⟩ | ⟨-, hperform, -⟩ := hreg'.perform_cases (.read x)
  · rw [hperform]
    exact h
  · rw [hperform]
    exact h.trans (bare_refresh e').symm

end Alike

/-! ## Keeping the same solver -/

section

open Solver

theorem oblivious_enter (entry : VariableEntry α) (x : VariableId) : Oblivious (entry.enter x) := by
  unfold VariableEntry.enter
  cases entry.pin with
  | some pin => exact addConstraint_oblivious pin
  | none => exact respects_bind (addEditVariable_oblivious _ _) fun _ => suggestValue_oblivious _ _

theorem oblivious_leave (entry : VariableEntry α) (x : VariableId) : Oblivious (entry.leave x) := by
  unfold VariableEntry.leave
  cases entry.pin with
  | some pin => exact removeConstraint_oblivious pin.label
  | none => exact removeEditVariable_oblivious _

/-- No change of the solver that a write makes depends on values that were read. -/
theorem oblivious_change (e : Engine α) (w : Write α) : Oblivious (w.change e) := by
  cases w with
  | want x p target =>
    cases hx : e.vars.entries.get? x with
    | none =>
      rw [Write.change_want_new hx]
      exact oblivious_enter _ x
    | some entry =>
      rw [Write.change_want_known hx]
      exact respects_bind (oblivious_leave entry x) fun _ => oblivious_enter _ x
  | move x target => exact suggestValue_oblivious x.backing target
  | forget x =>
    unfold Write.change
    dsimp only
    cases e.vars.entries.get? x with
    | none => exact respects_pure ()
    | some entry => exact oblivious_leave entry x
  | state c d enabled =>
    cases enabled with
    | false =>
      rw [Write.change_state_off]
      exact respects_pure ()
    | true =>
      cases hc : e.constraints.entries.get? c with
      | none =>
        rw [Write.change_state_new hc]
        exact addConstraint_oblivious _
      | some entry =>
        rw [Write.change_state_known hc]
        exact respects_bind (removeConstraint_oblivious _) fun _ => addConstraint_oblivious _
  | switch c enabled =>
    unfold Write.change
    dsimp only
    cases e.constraints.entries.get? c with
    | none => exact respects_pure ()
    | some entry =>
      cases enabled with
      | true => exact addConstraint_oblivious _
      | false => exact removeConstraint_oblivious _
  | retract c =>
    cases hc : e.constraints.entries.get? c with
    | none =>
      unfold Write.change
      dsimp only
      rw [hc]
      exact respects_pure ()
    | some entry =>
      rw [Write.change_retract hc]
      cases entry.enabled with
      | true => exact removeConstraint_oblivious _
      | false => exact respects_pure ()

end

/-- The engine has lost its solver at some time. -/
def Dropped (e : Engine α) : Prop := 0 < e.health.invalidations

theorem Dropped.write (h : e.Dropped) (w : Write α) : (e.write w).Dropped := by
  have hhealth : (w.record e).health = e.health := (w.record_rest e).2.2.2.1
  unfold Dropped Engine.write at *
  obtain ⟨-, happly⟩ | ⟨s, s', -, -, happly⟩ | ⟨s, cause, s', -, -, happly⟩ :=
    (w.record e).apply_cases (w.change e)
  · rw [happly, hhealth]
    exact h
  · rw [happly, hhealth]
    exact h
  · rw [happly, invalidate_health]
    exact Nat.succ_pos _

theorem Dropped.refresh (h : e.Dropped) : e.refresh.Dropped := by
  have hlive : e.ensureLive.Dropped := by
    obtain ⟨-, hlive⟩ | ⟨-, s, -, hlive⟩ | ⟨-, cause, -, hlive⟩ := e.ensureLive_cases
    · rw [hlive]
      exact h
    · rw [hlive, Dropped, adopt_health]
      exact h
    · rw [hlive, Dropped, failRebuild_health]
      exact h
  unfold Engine.refresh
  obtain ⟨-, hread⟩ | ⟨s, -, -, hread⟩ := e.ensureLive.readValues_cases
  · rw [hread]
    exact hlive
  · rw [hread]
    exact hlive

/-- The engines are live and have the same solver, values that were read apart. -/
structure Linked (e e' : Engine α) : Prop where
  live : e.isLive = true
  solver : e.solver.map Solver.unread = e'.solver.map Solver.unread
  health : e.health = e'.health

/-- The engines have the same solver, or both have lost it at some time. -/
def Abreast (e e' : Engine α) : Prop := e.Linked e' ∨ e.Dropped ∧ e'.Dropped

/-- Neither the caller's mark nor who listens matters to the solver. -/
theorem Abreast.mark (h : e.Abreast e') (dirty hooked dirty' hooked' : Bool) :
    ({ e with dirty := dirty, hooked := hooked } : Engine α).Abreast
      { e' with dirty := dirty', hooked := hooked' } :=
  h.imp (fun hlinked => ⟨hlinked.live, hlinked.solver, hlinked.health⟩) fun hdropped => hdropped

namespace Linked

theorem exists_solvers (h : e.Linked e') :
    ∃ s s', e.solver = some s ∧ e'.solver = some s' ∧ s.unread = s'.unread := by
  obtain ⟨s, hs⟩ := Option.isSome_iff_exists.1 h.live
  have hsame := h.solver
  rw [hs, Option.map_some] at hsame
  obtain ⟨s', hs', heq⟩ := Option.map_eq_some_iff.1 hsame.symm
  exact ⟨s, s', hs, hs', heq.symm⟩

theorem symm (h : e.Linked e') : e'.Linked e := by
  obtain ⟨s, s', -, hs', -⟩ := h.exists_solvers
  exact ⟨Option.isSome_iff_exists.2 ⟨s', hs'⟩, h.solver.symm, h.health.symm⟩

/-- Linked engines are linked after a write, or both lose their solvers by it. -/
theorem write (h : e.Linked e') (halike : e.Alike e') (w : Write α) :
    (e.write w).Abreast (e'.write w) := by
  obtain ⟨s, s', hs, hs', hsame⟩ := h.exists_solvers
  obtain ⟨hsolver, -, -, hhealth, -⟩ := w.record_rest e
  obtain ⟨hsolver', -, -, hhealth', -⟩ := w.record_rest e'
  unfold Engine.write
  rw [← halike.change w]
  obtain ⟨_, t, t', hrun, hrun', ht⟩ | ⟨cause, t, t', hrun, hrun'⟩ :=
    (oblivious_change e w).cases hsame
  · rw [apply_of_ok (hsolver.trans hs) hrun, apply_of_ok (hsolver'.trans hs') hrun']
    exact Or.inl ⟨rfl, congrArg some ht, hhealth.trans (h.health.trans hhealth'.symm)⟩
  · rw [apply_of_error (hsolver.trans hs) hrun, apply_of_error (hsolver'.trans hs') hrun']
    refine Or.inr ⟨?_, ?_⟩ <;>
    · rw [Dropped, invalidate_health]
      exact Nat.succ_pos _

/-- A read leaves an engine that is linked. -/
theorem read (h : e.Linked e') : e.Linked e'.refresh := by
  obtain ⟨s, s', hs, hs', hsame⟩ := h.exists_solvers
  unfold Engine.refresh
  rw [ensureLive_of_live h.symm.live]
  obtain ⟨-, hread⟩ | ⟨s'', -, hs'', hread⟩ := e'.readValues_cases
  · rw [hread]
    exact h
  · rw [hread]
    obtain rfl : s' = s'' := Option.some.inj (hs'.symm.trans hs'')
    refine ⟨h.live, ?_, h.health⟩
    rw [hs, Option.map_some, Option.map_some, Solver.unread_updateVariables, hsame]

end Linked

/-! ## Two runs -/

/-- Two engines that have gone through the same calls, reads apart. -/
structure Paired (e e' : Engine α) : Prop where
  registered : e.Registered
  registered' : e'.Registered
  alike : e.Alike e'
  abreast : e.Abreast e'

theorem Alike.writeAll_abreast (halike : e.Alike e') (h : e.Abreast e') (ws : List (Write α)) :
    (e.writeAll ws).Abreast (e'.writeAll ws) := by
  induction ws generalizing e e' with
  | nil => exact h
  | cons w ws ih =>
    refine ih (halike.write w) ?_
    obtain hlinked | ⟨hdropped, hdropped'⟩ := h
    · exact hlinked.write halike w
    · exact Or.inr ⟨hdropped.write w, hdropped'.write w⟩

theorem Alike.carryOut_abreast (halike : e.Alike e') (h : e.Abreast e') (ws : List (Write α)) :
    (e.carryOut ws).Abreast (e'.carryOut ws) := by
  cases ws with
  | nil => exact h
  | cons w ws =>
    obtain ⟨hlive, hsolver, hhealth⟩ | hdropped := halike.writeAll_abreast h (w :: ws)
    · exact Or.inl ⟨hlive, hsolver, hhealth⟩
    · exact Or.inr hdropped

namespace Paired

theorem read (h : e.Paired e') (x : VariableId) : e.Paired ((Command.read x).perform e').2 where
  registered := h.registered
  registered' := h.registered'.after [.read x]
  alike := h.alike.read h.registered' x
  abreast := by
    obtain ⟨err, -, hperform⟩ | ⟨-, hperform, -⟩ := h.registered'.perform_cases (.read x)
    · rw [hperform]
      exact h.abreast
    · rw [hperform]
      obtain hlinked | ⟨hdropped, hdropped'⟩ := h.abreast
      · exact Or.inl hlinked.read
      · exact Or.inr ⟨hdropped, hdropped'.refresh⟩

/-- A call that is no read gives the same answer in both runs. -/
theorem step (h : e.Paired e') (hc : c.isRead = false) :
    (c.perform e).1 = (c.perform e').1 ∧ ((c.perform e).2).Paired (c.perform e').2 := by
  have hsame := h.alike.perform h.registered h.registered' hc
  refine ⟨hsame, h.registered.after [c], h.registered'.after [c],
    h.alike.step h.registered h.registered' c, ?_⟩
  obtain ⟨err, hrefusal, hperform⟩ | ⟨hrefusal, hperform, -⟩ := h.registered.perform_cases c
  · obtain ⟨err', -, hperform'⟩ | ⟨hrefusal', -⟩ := h.registered'.perform_cases c
    · rw [hperform, hperform']
      exact h.abreast
    · rw [← h.alike.refusal, hrefusal] at hrefusal'
      cases hrefusal'
  · obtain ⟨err', hrefusal', -⟩ | ⟨-, hperform', -⟩ := h.registered'.perform_cases c
    · rw [← h.alike.refusal, hrefusal] at hrefusal'
      cases hrefusal'
    · rw [hperform, hperform']
      have hcarried : (e.carryOut (c.writes e)).Abreast (e'.carryOut (c.writes e')) := by
        rw [← h.alike.writes c]
        exact h.alike.carryOut_abreast h.abreast _
      cases c with
      | read x => cases hc
      | takeDirty => exact h.abreast.mark false e.hooked false e'.hooked
      | listen => exact h.abreast.mark e.dirty true e'.dirty true
      | stopListening => exact h.abreast.mark e.dirty false e'.dirty false
      | _ => exact hcarried

theorem run (h : e.Paired e') (history : List (Command α)) :
    let others := history.filter fun c => !c.isRead
    (history.zip (e'.answers history)).filter (fun o => !o.1.isRead) = others.zip (e.answers others) ∧
      (e.after others).Paired (e'.after history) := by
  intro others
  induction history generalizing e e' with
  | nil => exact ⟨rfl, h⟩
  | cons c history ih =>
    cases hc : c.isRead with
    | true =>
      obtain ⟨x, rfl⟩ : ∃ x, c = .read x := by
        cases c with
        | read x => exact ⟨x, rfl⟩
        | _ => cases hc
      exact ih (h.read x)
    | false =>
      obtain ⟨hanswer, hpaired⟩ := h.step hc
      obtain ⟨hzip, hafter⟩ := ih hpaired
      have hothers : others = c :: history.filter fun c => !c.isRead :=
        List.filter_cons_of_pos (by rw [hc]; rfl)
      rw [hothers]
      refine ⟨?_, hafter⟩
      rw [answers, List.zip_cons_cons, List.filter_cons_of_pos (by rw [hc]; rfl), hzip, answers,
        List.zip_cons_cons, hanswer]

end Paired

/-! ## Reading two engines -/

/-- Linked engines answer a read alike. -/
theorem Linked.perform_read (h : e.Linked e') (halike : e.Alike e') (hreg : e.Registered)
    (hreg' : e'.Registered) (hsettled : e.Settled) (hsettled' : e'.Settled) (x : VariableId) :
    ((Command.read x).perform e).1 = ((Command.read x).perform e').1 ∧
      (((Command.read x).perform e).2).Linked ((Command.read x).perform e').2 := by
  have hrefusal := halike.refusal (.read x)
  obtain ⟨err, hrefused, hperform⟩ | ⟨hnone, hperform, -⟩ := hreg.perform_cases (.read x)
  · obtain ⟨err', hrefused', hperform'⟩ | ⟨hnone', -⟩ := hreg'.perform_cases (.read x)
    · rw [hrefused, hrefused'] at hrefusal
      cases hrefusal
      rw [hperform, hperform']
      exact ⟨rfl, h⟩
    · rw [hrefused, hnone'] at hrefusal
      cases hrefusal
  · obtain ⟨err', hrefused', -⟩ | ⟨-, hperform', -⟩ := hreg'.perform_cases (.read x)
    · rw [hnone, hrefused'] at hrefusal
      cases hrefusal
    · have hcontains : e.vars.entries.contains x = e'.vars.entries.contains x := by
        have hsame : (e.bare.vars.entries.get? x).isSome = (e'.bare.vars.entries.get? x).isSome := by
          rw [show e.bare = e'.bare from halike]
        rwa [get?_bare, get?_bare, Option.isSome_map, Option.isSome_map] at hsame
      obtain ⟨s, s', hs, hs', hsame⟩ := h.exists_solvers
      rw [hperform, hperform']
      refine ⟨congrArg (fun v => Except.ok (Reply.number v)) ?_, h.read.symm.read.symm⟩
      rw [hsettled.solvedValue_refresh hs, hsettled'.solvedValue_refresh hs', hcontains,
        Solver.updateVariables_congr hsame]

/-- Linked engines answer the same reads alike. -/
theorem Linked.answers_reads (h : e.Linked e') (halike : e.Alike e') (hreg : e.Registered)
    (hreg' : e'.Registered) (hsettled : e.Settled) (hsettled' : e'.Settled) (xs : List VariableId) :
    e.answers (xs.map .read) = e'.answers (xs.map .read) := by
  induction xs generalizing e e' with
  | nil => rfl
  | cons x xs ih =>
    obtain ⟨hanswer, hlinked⟩ := h.perform_read halike hreg hreg' hsettled hsettled' x
    refine congrArg₂ List.cons hanswer ?_
    exact ih hlinked (halike.step hreg hreg' _) (hreg.after [.read x]) (hreg'.after [.read x])
      (hsettled.perform hreg _) (hsettled'.perform hreg' _)

/-- Reads are invisible to the rest of a history. Without the reads all other calls are
answered alike, and the registries, solved values apart, and the mark for the caller come out
the same. If the solver is never dropped, with or without the reads, then its tableau and the
health come out the same as well, and so does whatever is read from there on. -/
theorem reads_invisible (id : EngineId) (options : EngineOptions) (history : List (Command α)) :
    let e : Engine α := .create id options
    let others := history.filter fun c => !c.isRead
    (history.zip (e.answers history)).filter (fun o => !o.1.isRead) = others.zip (e.answers others) ∧
    unsolved (e.after history).vars = unsolved (e.after others).vars ∧
    (e.after history).constraints = (e.after others).constraints ∧
    (e.after history).dirty = (e.after others).dirty ∧
    ((e.after history).health.invalidations = 0 ∨ (e.after others).health.invalidations = 0 →
      (e.after history).isLive = true ∧
      (e.after history).solver.map Solver.tableau = (e.after others).solver.map Solver.tableau ∧
      (e.after history).health = (e.after others).health ∧
      ∀ xs : List VariableId, (e.after history).answers (xs.map .read)
        = (e.after others).answers (xs.map .read)) := by
  intro e others
  have hreg : e.Registered := .create id options
  have hpaired : e.Paired e := ⟨hreg, hreg, rfl, Or.inl ⟨rfl, rfl, rfl⟩⟩
  obtain ⟨hanswers, hafter⟩ := hpaired.run history
  have halike := hafter.alike
  refine ⟨hanswers, (congrArg Engine.vars halike).symm, (congrArg Engine.constraints halike).symm,
    (congrArg Engine.dirty halike).symm, fun hkept => ?_⟩
  have hlinked : (e.after others).Linked (e.after history) := by
    obtain hlinked | ⟨hdropped, hdropped'⟩ := hafter.abreast
    · exact hlinked
    · obtain hzero | hzero := hkept
      · exact absurd hzero (Nat.ne_of_gt hdropped')
      · exact absurd hzero (Nat.ne_of_gt hdropped)
  obtain ⟨s, s', hs, hs', hsame⟩ := hlinked.exists_solvers
  refine ⟨hlinked.symm.live, ?_, hlinked.health.symm, fun xs => ?_⟩
  · rw [hs, hs']
    exact congrArg some (congrArg Solver.tableau hsame).symm
  · have hsettled (history : List (Command α)) : (e.after history).Settled :=
      Settled.after (lawful_create id options).settled hreg history
    exact (hlinked.answers_reads halike hafter.registered hafter.registered' (hsettled _)
      (hsettled _) xs).symm

/-- A variable that is read before a second constraint pulls at it as hard as the first, so
that any value between the two is optimal. -/
def tied : List (Command Rat) :=
  let x : VariableId := ⟨⟨0⟩, 0⟩
  let equals (n : Rat) : Definition Rat := ⟨.ofUnknown x, .equal, .ofConstant n, .p1⟩
  [.createVariable 15 .p3, .createConstraint (equals 10) true, .read x,
    .createConstraint (equals 20) true, .suggest x 30]

/-- The solver is kept, and the last value is the same without the first read. -/
theorem reads_invisible_tied :
    let x : VariableId := ⟨⟨0⟩, 0⟩
    let e : Engine Rat := .create ⟨0⟩ .default
    tied.any Command.isRead = true ∧ (e.after tied).health.invalidations = 0 ∧
      (e.after tied).answers [.read x]
        = (e.after (tied.filter fun c => !c.isRead)).answers [.read x] := by
  intro x e
  have hkept : (e.after tied).health.invalidations = 0 := by decide +kernel
  exact ⟨rfl, hkept, ((reads_invisible ⟨0⟩ .default tied).2.2.2.2 (Or.inl hkept)).2.2.2 [x]⟩

end Engine

end BoxLayout
