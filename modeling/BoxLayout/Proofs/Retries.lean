-- SUMMARY: Retrying failed rebuilds costs time and changes no answer.
import BoxLayout.Proofs.Recovery

/-!
# Retries

An engine that retries failed rebuilds and one that does not go through the same calls. As
long as no registry changes, a rebuild that failed fails again, and for the same reason. So the
one that does not retry misses nothing by being blocked: it counts fewer failures and reports
fewer of them, and that is all there is to tell the engines apart by.
-/

namespace BoxLayout.Engine

variable {α : Type} [Scalar α] {e l : Engine α} {c : Command α} {history : List (Command α)}

/-! ## What retries make no difference to -/

section

variable {α : Type}

/-- The engine without its choice about retries, and without what it tells about them. -/
def core (e : Engine α) : Engine α :=
  { e with
    options := { e.options with retryFailedRebuild := true }
    rebuildBlocked := false
    health := { e.health with failedRebuilds := 0 }
    journal := .empty }

end

theorem core_record (e : Engine α) (w : Write α) : (w.record e.core).core = (w.record e).core := by
  cases w with
  | move x target =>
    cases hx : e.vars.entries.get? x with
    | some entry => rw [Write.record_move hx, Write.record_move (e := e.core) hx]; rfl
    | none => rw [Write.record_move_unknown hx, Write.record_move_unknown (e := e.core) hx]; rfl
  | switch c enabled =>
    cases hc : e.constraints.entries.get? c with
    | some entry => rw [Write.record_switch hc, Write.record_switch (e := e.core) hc]; rfl
    | none => rw [Write.record_switch_unknown hc, Write.record_switch_unknown (e := e.core) hc]; rfl
  | _ => rfl

omit [Scalar α] in
theorem core_apply (m : Attempt SolverError (Solver α) Unit) (e : Engine α) :
    (e.core.apply m).core = (e.apply m).core := by
  rcases e.apply_cases m with ⟨hs, h⟩ | ⟨s, s', hs, hm, h⟩ | ⟨s, cause, s', hs, hm, h⟩
  · have hnone : e.core.apply m = e.core := by
      unfold apply
      rw [show e.core.solver = none from hs]
    rw [h, hnone]
    rfl
  · rw [h, apply_of_ok (e := e.core) hs hm]
    rfl
  · rw [h, apply_of_error (e := e.core) hs hm]
    unfold invalidate emit
    cases hhooked : e.hooked <;> simp [core, log, hhooked]

theorem core_write (e : Engine α) (w : Write α) : (e.core.write w).core = (e.write w).core := by
  have hchange : w.change e.core = w.change e := by cases w <;> rfl
  unfold Engine.write
  rw [hchange, ← core_apply, core_record, core_apply]

omit [Scalar α] in
theorem core_adopt (s : Solver α) (e : Engine α) : (e.core.adopt s).core = (e.adopt s).core := by
  unfold adopt emit
  cases hhooked : e.hooked <;> simp [core, log, hhooked]

omit [Scalar α] in
theorem core_failRebuild (cause : SolverError) (e : Engine α) : (e.failRebuild cause).core
    = { e.core with health := { e.core.health with lastError := some cause } } := by
  unfold failRebuild emit
  cases hhooked : e.hooked <;> simp [core, log, hhooked]

theorem core_readValues (e : Engine α) : e.core.readValues.core = e.readValues.core := by
  unfold readValues
  cases houtdated : e.outdated <;> cases hs : e.solver <;> simp [core, houtdated, hs]

/-! ## Twins -/

/-- A rebuild of the solver failed for a reason that is known, and would fail again. -/
def Hopeless (e : Engine α) : Prop :=
  e.solver = none ∧ ∃ cause, replay e.options.steps e.vars e.constraints = .error cause ∧
    e.health.lastError = some cause

/-- One engine is never blocked. The other one may be, but only where a retry is hopeless.
Otherwise they are the same. -/
structure Twins (e l : Engine α) : Prop where
  core : e.core = l.core
  free : e.rebuildBlocked = false
  hopeless : l.rebuildBlocked = true → l.Hopeless
  fewer : l.health.failedRebuilds ≤ e.health.failedRebuilds

/-- What the other engine reports is the same, or it leaves out a failure that is known. -/
def Echoes (l : Engine α) (reported reported' : List SolverEvent) : Prop :=
  reported' = reported ∨ reported' = [] ∧ l.rebuildBlocked = true ∧
    ∃ cause, l.health.lastError = some cause ∧ reported = [.rebuildFailed cause]

/-- The events without some of the failed rebuilds. -/
def Thinned (events events' : List SolverEvent) : Prop :=
  events'.Sublist events ∧ events'.filter (fun event => !event.isRebuildFailed)
    = events.filter fun event => !event.isRebuildFailed

omit [Scalar α] in
theorem Echoes.thinned {reported reported' : List SolverEvent} (h : l.Echoes reported reported') :
    Thinned reported reported' := by
  rcases h with rfl | ⟨rfl, -, cause, -, rfl⟩
  · exact ⟨List.Sublist.refl _, rfl⟩
  · exact ⟨List.nil_sublist _, rfl⟩

/-- Both engines report further events, one of them perhaps fewer. -/
def Report (e l e' l' : Engine α) : Prop :=
  ∃ reported reported', e'.journal.events = e.journal.events ++ reported ∧
    l'.journal.events = l.journal.events ++ reported' ∧ l.Echoes reported reported'

omit [Scalar α] in
theorem Report.thinned {e' l' : Engine α} (h : Report e l e' l')
    (hbefore : Thinned e.journal.events l.journal.events) :
    Thinned e'.journal.events l'.journal.events := by
  obtain ⟨reported, reported', hevents, hevents', hechoes⟩ := h
  obtain ⟨hsublist, hothers⟩ := hechoes.thinned
  rw [hevents, hevents']
  refine ⟨hbefore.1.append hsublist, ?_⟩
  rw [List.filter_append, List.filter_append, hbefore.2, hothers]

omit [Scalar α] in
theorem Report.silent (e l : Engine α) : Report e l e l := ⟨[], [], by simp, by simp, .inl rfl⟩

namespace Twins

theorem create (id : EngineId) (steps : Nat) :
    (Engine.create id ⟨true, steps⟩ : Engine α).Twins (.create id ⟨false, steps⟩) where
  core := rfl
  free := rfl
  hopeless h := by cases h
  fewer := Nat.le_refl _

theorem same_fields (h : e.Twins l) : e.id = l.id ∧ e.options.steps = l.options.steps ∧
    e.solver = l.solver ∧ e.vars = l.vars ∧ e.constraints = l.constraints ∧
    e.outdated = l.outdated ∧ e.dirty = l.dirty ∧ e.hooked = l.hooked :=
  ⟨(congrArg id h.core :), (congrArg (fun e => e.options.steps) h.core :),
    (congrArg solver h.core :), (congrArg vars h.core :), (congrArg constraints h.core :),
    (congrArg outdated h.core :), (congrArg dirty h.core :), (congrArg hooked h.core :)⟩

theorem same_health (h : e.Twins l) : e.health.invalidations = l.health.invalidations ∧
    e.health.rebuilds = l.health.rebuilds ∧ e.health.lastError = l.health.lastError :=
  ⟨(congrArg (fun e => e.health.invalidations) h.core :),
    (congrArg (fun e => e.health.rebuilds) h.core :),
    (congrArg (fun e => e.health.lastError) h.core :)⟩

theorem same_isLive (h : e.Twins l) : e.isLive = l.isLive := (congrArg isLive h.core :)

theorem refusal (h : e.Twins l) (c : Command α) : c.refusal e = c.refusal l := by
  have hcore (e : Engine α) : c.refusal e.core = c.refusal e := by cases c <;> rfl
  rw [← hcore e, h.core, hcore]

theorem writes (h : e.Twins l) (c : Command α) : c.writes e = c.writes l := by
  have hcore (e : Engine α) : c.writes e.core = c.writes e := by cases c <;> rfl
  rw [← hcore e, h.core, hcore]

theorem reply (h : e.Twins l) (hc : c.isRead = false) : c.reply e = c.reply l := by
  have hcore (e : Engine α) : c.reply e.core = c.reply e := by
    cases c with
    | read x => cases hc
    | _ => rfl
  rw [← hcore e, h.core, hcore]

/-! ### Mutations -/

theorem same_core_writeAll (h : e.core = l.core) (ws : List (Write α)) :
    (e.writeAll ws).core = (l.writeAll ws).core := by
  induction ws generalizing e l with
  | nil => exact h
  | cons w ws ih =>
    refine ih (e := e.write w) (l := l.write w) ?_
    rw [← core_write e, h, core_write]

end Twins

omit [Scalar α] in
/-- Engines with the same core lose their solvers together, and for the same reason. -/
theorem Turns.same_loss {e' l' : Engine α} {event event' : Option SolverEvent}
    (h : Turns e e' event) (h' : Turns l l' event') (hcore : e.core = l.core)
    (hcore' : e'.core = l'.core) (hloss : ∀ ev ∈ event, ev.isInvalidated = true)
    (hloss' : ∀ ev ∈ event', ev.isInvalidated = true) : event = event' := by
  have hlive : e.isLive = l.isLive := (congrArg isLive hcore :)
  have hlive' : e'.isLive = l'.isLive := (congrArg isLive hcore' :)
  have hnone : event = none ↔ event' = none := by
    rw [h.eq_none_iff hloss, h'.eq_none_iff hloss', hlive, hlive']
  cases event with
  | none => exact (hnone.1 rfl).symm
  | some ev =>
    cases event' with
    | none => exact hnone.2 rfl
    | some ev' =>
      have herror : e'.health.lastError = l'.health.lastError :=
        (congrArg (fun e => e.health.lastError) hcore' :)
      rw [h.health, h'.health] at herror
      obtain ⟨cause, rfl⟩ := SolverEvent.isInvalidated_iff.1 (hloss ev rfl)
      obtain ⟨cause', rfl⟩ := SolverEvent.isInvalidated_iff.1 (hloss' ev' rfl)
      obtain rfl : cause = cause' := Option.some.inj herror
      rfl

omit [Scalar α] in
theorem Turns.failedRebuilds {e' : Engine α} {event : Option SolverEvent} (h : Turns e e' event)
    (hloss : ∀ ev ∈ event, ev.isInvalidated = true) :
    e'.health.failedRebuilds = e.health.failedRebuilds := by
  rw [h.health]
  cases event with
  | none => rfl
  | some ev =>
    obtain ⟨cause, rfl⟩ := SolverEvent.isInvalidated_iff.1 (hloss ev rfl)
    rfl

namespace Twins

theorem carryOut (h : e.Twins l) (ws : List (Write α)) :
    (e.carryOut ws).Twins (l.carryOut ws) ∧ Report e l (e.carryOut ws) (l.carryOut ws) := by
  cases ws with
  | nil => exact ⟨h, .silent e l⟩
  | cons w ws =>
    have hcore := same_core_writeAll h.core (w :: ws)
    obtain ⟨event, hturn, hloss⟩ := e.writeAll_turns (w :: ws)
    obtain ⟨event', hturn', hloss'⟩ := l.writeAll_turns (w :: ws)
    obtain rfl := hturn.same_loss hturn' h.core hcore hloss hloss'
    have hfewer : (l.writeAll (w :: ws)).health.failedRebuilds
        ≤ (e.writeAll (w :: ws)).health.failedRebuilds := by
      rw [hturn.failedRebuilds hloss, hturn'.failedRebuilds hloss]
      exact h.fewer
    have hhooked : e.hooked = l.hooked := h.same_fields.2.2.2.2.2.2.2
    refine ⟨⟨(congrArg markChanged hcore :), rfl, fun hblocked => (by cases hblocked), hfewer⟩, ?_⟩
    exact ⟨_, _, hturn.events, hturn'.events, .inl (by rw [hhooked])⟩

/-! ### Reads -/

theorem adopt (h : e.Twins l) (hfree : l.rebuildBlocked = false) (s : Solver α) :
    (e.adopt s).Twins (l.adopt s) where
  core := by rw [← core_adopt, h.core, core_adopt]
  free := (adopt_blocked s e).trans h.free
  hopeless hblocked := by
    rw [adopt_blocked, hfree] at hblocked
    cases hblocked
  fewer := by
    rw [adopt_health, adopt_health]
    exact h.fewer

theorem failRebuild (h : e.Twins l) (hretry : e.options.retryFailedRebuild = true) {cause : SolverError}
    (hnone : l.solver = none) (hreplay : replay l.options.steps l.vars l.constraints = .error cause) :
    (e.failRebuild cause).Twins (l.failRebuild cause) where
  core := by rw [core_failRebuild, core_failRebuild, h.core]
  free := by
    rw [(failRebuild_rest cause e).2, hretry]
    rfl
  hopeless _ := by
    obtain ⟨-, hvars, hconstraints, -, hsolver⟩ := failRebuild_fields cause l
    refine ⟨hsolver.trans hnone, cause, ?_, ?_⟩
    · rw [(failRebuild_rest cause l).1, hvars, hconstraints, hreplay]
    · rw [failRebuild_health]
  fewer := by
    rw [failRebuild_health, failRebuild_health]
    exact Nat.succ_le_succ h.fewer

/-- A failure that is known already may be noted by one engine alone. -/
theorem failRebuild_again (h : e.Twins l) (hretry : e.options.retryFailedRebuild = true)
    {cause : SolverError} (hknown : l.health.lastError = some cause) :
    (e.failRebuild cause).Twins l where
  core := by
    have hsame : e.core.health.lastError = some cause := h.same_health.2.2.trans hknown
    rw [core_failRebuild, ← hsame]
    exact h.core
  free := by
    rw [(failRebuild_rest cause e).2, hretry]
    rfl
  hopeless := h.hopeless
  fewer := by
    rw [failRebuild_health]
    exact Nat.le_succ_of_le h.fewer

/-- Both engines get a solver for the registries they share, or neither of them does. -/
theorem ensureLive (h : e.Twins l) (hretry : e.options.retryFailedRebuild = true) :
    e.ensureLive.Twins l.ensureLive ∧ Report e l e.ensureLive l.ensureLive := by
  obtain ⟨-, hsteps, -, hvars, hconstraints, -, -, hhooked⟩ := h.same_fields
  cases hlive : e.isLive with
  | true =>
    rw [ensureLive_of_live hlive, ensureLive_of_live (h.same_isLive.symm.trans hlive)]
    exact ⟨h, .silent e l⟩
  | false =>
    have hlive' : l.isLive = false := h.same_isLive.symm.trans hlive
    have hreplay : replay e.options.steps e.vars e.constraints
        = replay l.options.steps l.vars l.constraints := by rw [hsteps, hvars, hconstraints]
    rw [ensureLive_of_free hlive h.free, hreplay]
    cases hblocked : l.rebuildBlocked with
    | true =>
      obtain ⟨-, cause, hfails, hknown⟩ := h.hopeless hblocked
      rw [ensureLive_of_blocked hblocked, hfails]
      refine ⟨h.failRebuild_again hretry hknown, _, [],
        (failRebuild_turns hlive cause).events, (List.append_nil _).symm, ?_⟩
      cases e.hooked with
      | true => exact .inr ⟨rfl, hblocked, cause, hknown, rfl⟩
      | false => exact .inl rfl
    | false =>
      rw [ensureLive_of_free hlive' hblocked]
      cases hreplay' : replay l.options.steps l.vars l.constraints with
      | ok s =>
        exact ⟨h.adopt hblocked s, _, _, (adopt_turns hlive s).events, (adopt_turns hlive' s).events,
          .inl (by rw [hhooked])⟩
      | error cause =>
        exact ⟨h.failRebuild hretry (by simpa [isLive] using hlive') hreplay', _, _,
          (failRebuild_turns hlive cause).events, (failRebuild_turns hlive' cause).events,
          .inl (by rw [hhooked])⟩

theorem readValues (h : e.Twins l) : e.readValues.Twins l.readValues where
  core := by rw [← core_readValues, h.core, core_readValues]
  free := (readValues_rest e).1.trans h.free
  hopeless hblocked := by
    rw [(readValues_rest l).1] at hblocked
    have hhopeless := h.hopeless hblocked
    rcases l.readValues_cases with ⟨-, hread⟩ | ⟨s, -, hs, -⟩
    · rw [hread]
      exact hhopeless
    · rw [hhopeless.1] at hs
      cases hs
  fewer := by
    have hhealth (e : Engine α) : e.readValues.health = e.health := by
      rcases e.readValues_cases with ⟨-, hread⟩ | ⟨s, -, -, hread⟩ <;> rw [hread]
    rw [hhealth, hhealth]
    exact h.fewer

theorem refresh (h : e.Twins l) (hretry : e.options.retryFailedRebuild = true) :
    e.refresh.Twins l.refresh ∧ Report e l e.refresh l.refresh := by
  obtain ⟨htwins, reported, reported', hevents, hevents', hechoes⟩ := h.ensureLive hretry
  refine ⟨htwins.readValues, reported, reported', ?_, ?_, hechoes⟩
  · rw [Engine.refresh, (readValues_rest _).2, hevents]
  · rw [Engine.refresh, (readValues_rest _).2, hevents']

/-! ### Calls -/

theorem mark (h : e.Twins l) (dirty : Bool) :
    ({ e with dirty := dirty } : Engine α).Twins { l with dirty := dirty } :=
  ⟨(congrArg (fun e => { e with dirty := dirty }) h.core :), h.free, h.hopeless, h.fewer⟩

theorem hook (h : e.Twins l) (hooked : Bool) :
    ({ e with hooked := hooked } : Engine α).Twins { l with hooked := hooked } :=
  ⟨(congrArg (fun e => { e with hooked := hooked }) h.core :), h.free, h.hopeless, h.fewer⟩

theorem effect (h : e.Twins l) (hretry : e.options.retryFailedRebuild = true) (c : Command α) :
    (c.effect e).Twins (c.effect l) ∧ Report e l (c.effect e) (c.effect l) := by
  have hcarried : (e.carryOut (c.writes e)).Twins (l.carryOut (c.writes l)) ∧
      Report e l (e.carryOut (c.writes e)) (l.carryOut (c.writes l)) := by
    rw [← h.writes c]
    exact h.carryOut _
  cases c with
  | read x => exact h.refresh hretry
  | takeDirty => exact ⟨h.mark false, .silent e l⟩
  | listen => exact ⟨h.hook true, .silent e l⟩
  | stopListening => exact ⟨h.hook false, .silent e l⟩
  | _ => exact hcarried

/-- Both engines refuse a call for the same reason, or they give the same answer. -/
theorem perform (h : e.Twins l) (hreg : e.Registered) (hreg' : l.Registered)
    (hretry : e.options.retryFailedRebuild = true) (c : Command α) :
    (c.perform e).1 = (c.perform l).1 ∧ ((c.perform e).2).Twins (c.perform l).2 ∧
      Report e l (c.perform e).2 (c.perform l).2 := by
  have hsame := h.refusal c
  rcases hreg.perform_cases c with ⟨err, hrefusal, hperform⟩ | ⟨hrefusal, hperform, -⟩ <;>
    rcases hreg'.perform_cases c with ⟨err', hrefusal', hperform'⟩ | ⟨hrefusal', hperform', -⟩ <;>
    rw [hrefusal, hrefusal'] at hsame
  · obtain rfl := Option.some.inj hsame
    rw [hperform, hperform']
    exact ⟨rfl, h, .silent e l⟩
  · cases hsame
  · cases hsame
  · obtain ⟨htwins, hreport⟩ := h.effect hretry c
    rw [hperform, hperform']
    refine ⟨?_, htwins, hreport⟩
    cases hc : c.isRead with
    | false => rw [h.reply hc]
    | true =>
      obtain ⟨x, rfl⟩ := Command.isRead_iff.1 hc
      have hvars : e.refresh.vars = l.refresh.vars := (h.refresh hretry).1.same_fields.2.2.2.1
      simp only [Command.reply, solvedValue, hvars]

theorem after (h : e.Twins l) (hreg : e.Registered) (hreg' : l.Registered)
    (hretry : e.options.retryFailedRebuild = true)
    (hthinned : Thinned e.journal.events l.journal.events) (history : List (Command α)) :
    e.answers history = l.answers history ∧ (e.after history).Twins (l.after history) ∧
      Thinned (e.after history).journal.events (l.after history).journal.events := by
  induction history generalizing e l with
  | nil => exact ⟨rfl, h, hthinned⟩
  | cons c history ih =>
    obtain ⟨hanswer, htwins, hreport⟩ := h.perform hreg hreg' hretry c
    have hretry' : (c.perform e).2.options.retryFailedRebuild = true := by
      rw [((options_kept e.options).perform hreg rfl c).2, hretry]
    obtain ⟨hanswers, hafter⟩ :=
      ih htwins (hreg.after [c]) (hreg'.after [c]) hretry' (hreport.thinned hthinned)
    exact ⟨congrArg₂ List.cons hanswer hanswers, hafter⟩

end Twins

/-! ## Retries change no answer -/

/-- The engines agree on all that they answer by. One of them may have failed to rebuild its
solver less often. -/
structure Agree (e l : Engine α) : Prop where
  /-- The variables and how they are wanted, and their solved values as well. -/
  vars : e.vars = l.vars
  constraints : e.constraints = l.constraints
  live : e.isLive = l.isLive
  dirty : e.dirty = l.dirty
  invalidations : e.health.invalidations = l.health.invalidations
  rebuilds : e.health.rebuilds = l.health.rebuilds
  lastError : e.health.lastError = l.health.lastError
  fewer : l.health.failedRebuilds ≤ e.health.failedRebuilds
  events : Thinned e.journal.events l.journal.events

/-- Two engines that differ in whether they retry failed rebuilds give the same answers to every
history and agree after it. Any further call makes them report the same event, unless the one
that does not retry is blocked: then the other one may fail again, for the reason that both name
already. -/
theorem retries_change_no_answer (id : EngineId) (steps : Nat) (history : List (Command α)) :
    let e₀ : Engine α := .create id ⟨true, steps⟩
    let l₀ : Engine α := .create id ⟨false, steps⟩
    let e := e₀.after history
    let l := l₀.after history
    e₀.answers history = l₀.answers history ∧ e.Agree l ∧
      ∀ c : Command α, Report e l (c.perform e).2 (c.perform l).2 := by
  intro e₀ l₀ e l
  have hreg : e₀.Registered := .create id ⟨true, steps⟩
  have hreg' : l₀.Registered := .create id ⟨false, steps⟩
  obtain ⟨hanswers, htwins, hthinned⟩ :=
    (Twins.create id steps).after hreg hreg' rfl ⟨List.Sublist.refl _, rfl⟩ history
  have hretry : e.options.retryFailedRebuild = true := by
    rw [((options_kept e₀.options).after hreg rfl history).2]
    rfl
  obtain ⟨-, -, -, hvars, hconstraints, -, hdirty, -⟩ := htwins.same_fields
  obtain ⟨hinvalidations, hrebuilds, hlastError⟩ := htwins.same_health
  refine ⟨hanswers, ⟨hvars, hconstraints, htwins.same_isLive, hdirty, hinvalidations, hrebuilds,
    hlastError, htwins.fewer, hthinned⟩, fun c => ?_⟩
  exact (htwins.perform (hreg.after history) (hreg'.after history) hretry c).2.2

/-- Two reads of a variable that is pinned to one value and held at another. -/
example :
    let x : VariableId := ⟨⟨0⟩, 0⟩
    let history : List (Command Rat) := [.listen, .createVariable 1 .p0,
      .createConstraint ⟨.ofUnknown x, .equal, .ofConstant 2, .p0⟩ true, .read x, .read x]
    let failures (retry : Bool) : Nat :=
      ((Engine.create ⟨0⟩ ⟨retry, 100⟩).after history).health.failedRebuilds
    failures true = 2 ∧ failures false = 1 := by
  decide +kernel

end BoxLayout.Engine
