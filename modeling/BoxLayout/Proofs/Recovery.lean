-- SUMMARY: The recovery of an engine is told by its events: they come in rounds, and the health of the engine counts them.
import BoxLayout.Proofs.Events
import BoxLayout.Scalar.Double
import BoxLayout.Scalar.Exact

/-!
# Recovery

An engine that is listened to from the start tells everything about its recovery by its
events. Each call adds one event at most, so a history adds them in the order of its calls.

An engine that does not retry failed rebuilds is blocked by the first one. The next change of a
registry takes the block away. So does one call that changes nothing: a target is suggested again
that does not compare equal to itself, as an undefined number does not. The same registries are
then tried again.
-/

namespace BoxLayout.Engine

open scoped Computability

variable {α : Type} [Scalar α] {e e' : Engine α} {c : Command α} {history : List (Command α)}

/-! ## Events account for the engine -/

/-- The events of the engine account for its solver and for its health. -/
structure Accounted (e : Engine α) : Prop where
  hooked : e.hooked = true
  course : Course e.isLive e.journal.events
  health : e.health = .tally e.journal.events
  /-- As long as there is no solver, the values are out of date. -/
  pending : e.isLive = false → e.outdated = true

omit [Scalar α] in
/-- An engine that takes a turn and reports it is accounted for by one event more. -/
theorem Accounted.turns (h : e.Accounted) {event : Option SolverEvent} (hturn : Turns e e' event)
    (hpending : e'.isLive = false → e'.outdated = true) : e'.Accounted := by
  have hevents := hturn.events
  rw [h.hooked, if_pos rfl] at hevents
  refine ⟨hturn.hooked.trans h.hooked, ?_, ?_, hpending⟩
  · rw [hturn.after, hevents]
    cases event with
    | none => simpa using h.course
    | some ev =>
      have hcourse := h.course
      rw [hturn.before ev rfl] at hcourse
      cases ev with
      | invalidated cause => exact hcourse.lose cause
      | rebuilt => exact hcourse.rebuild
      | rebuildFailed cause => exact hcourse.fail cause
  · rw [hturn.health, hevents, h.health]
    cases event with
    | none => simp
    | some ev => exact (Health.tally_snoc _ _).symm

/-! ### Pending recalculations -/

theorem pending_refresh (h : e.isLive = false → e.outdated = true) :
    e.refresh.isLive = false → e.refresh.outdated = true := by
  unfold Engine.refresh
  intro hdead
  rcases e.ensureLive.readValues_cases with ⟨-, hread⟩ | ⟨s, -, -, hread⟩
  · rw [hread] at hdead ⊢
    rcases e.ensureLive_cases with ⟨-, hkept⟩ | ⟨-, s, -, hadopted⟩ | ⟨hnone, cause, -, hfailed⟩
    · rw [hkept] at hdead ⊢
      exact h hdead
    · rw [hadopted]
      exact (adopt_fields s e).2.2.2.2.2
    · have houtdated : (e.failRebuild cause).outdated = e.outdated := by
        unfold failRebuild emit
        dsimp only
        split <;> rfl
      rw [hfailed, houtdated]
      exact h (by simp [isLive, hnone])
  · rw [hread] at hdead
    cases hdead

theorem Registered.pending_perform (h : e.Registered) (hpending : e.isLive = false → e.outdated = true)
    (c : Command α) : (c.perform e).2.isLive = false → (c.perform e).2.outdated = true := by
  have hstep := h.step c
  generalize (c.perform e).2 = e' at hstep ⊢
  cases hstep with
  | stay | takeDirty | listen | stopListening => exact hpending
  | carry => exact fun _ => rfl
  | read => exact pending_refresh hpending

/-! ### Histories -/

/-- Somebody listens to the engine all the time. -/
def Heard (history : List (Command α)) : Prop := ∀ c ∈ history, c ≠ .stopListening

theorem Registered.accounted_perform (h : e.Registered) (haccounted : e.Accounted)
    (hc : c ≠ .stopListening) : (c.perform e).2.Accounted := by
  obtain ⟨event, hturn, -⟩ := h.perform_turns hc haccounted.hooked
  exact haccounted.turns hturn (h.pending_perform haccounted.pending c)

theorem Registered.accounted_after (h : e.Registered) (haccounted : e.Accounted)
    (hheard : Heard history) : (e.after history).Accounted := by
  induction history generalizing e with
  | nil => exact haccounted
  | cons c history ih =>
    have hc : c ≠ .stopListening := hheard c List.mem_cons_self
    exact ih (h.after [c]) (h.accounted_perform haccounted hc)
      fun d hd => hheard d (List.mem_cons_of_mem c hd)

theorem accounted_listen (id : EngineId) (options : EngineOptions) :
    (Engine.create id options : Engine α).listen.Accounted :=
  ⟨rfl, .start, rfl, fun hdead => by cases hdead⟩

/-! ## Changes of the registries -/

/-- The call changes a registry, solved values apart. -/
def Revises (e : Engine α) (c : Command α) : Prop :=
  unsolved (c.perform e).2.vars ≠ unsolved e.vars ∨ (c.perform e).2.constraints ≠ e.constraints

/-- The call suggests the target that a variable without a pin has already, and this target does
not compare equal to itself. -/
def SuggestsAgain (e : Engine α) (c : Command α) : Prop :=
  ∃ x entry, c = .suggest x entry.target ∧ e.vars.entries.get? x = some entry ∧
    entry.pin = none ∧ (entry.target == entry.target) = false

theorem get?_unsolved (vars : VariableRegistry α) (x : VariableId) : (unsolved vars).entries.get? x
    = (vars.entries.get? x).map fun entry => { entry with solved := 0 } :=
  OrderedMap.get?_mapValues _ _ _

/-- Registries that are the same, solved values apart, want a variable in the same way. -/
theorem entry_of_unsolved {vars vars' : VariableRegistry α} {x : VariableId}
    {entry entry' : VariableEntry α} (hsame : unsolved vars' = unsolved vars)
    (hx' : vars'.entries.get? x = some entry') (hx : vars.entries.get? x = some entry) :
    entry'.priority = entry.priority ∧ entry'.target = entry.target ∧ entry'.pin = entry.pin := by
  have hget := congrArg (fun r => r.entries.get? x) hsame
  simpa only [get?_unsolved, hx', hx, Option.map_some, Option.some.injEq, VariableEntry.mk.injEq,
    and_true] using hget

/-- Stating constraints is no matter of the variables. -/
theorem writeAll_states_vars {ws : List (Write α)}
    (hws : ∀ w ∈ ws, ∃ c d enabled, w = .state c d enabled) :
    (e.writeAll ws).vars = e.vars := by
  induction ws generalizing e with
  | nil => rfl
  | cons w ws ih =>
    obtain ⟨c, d, enabled, rfl⟩ := hws w List.mem_cons_self
    have hrest := ih (e := e.write (.state c d enabled)) fun w hw => hws w (List.mem_cons_of_mem _ hw)
    exact hrest.trans (write_vars _ _)

/-! ### Writes that change a registry -/

/-- What is stated anew gets a label that no constraint has had. -/
theorem Registered.constraints_state_ne (h : e.Registered) {c : ConstraintId} {d : Definition α}
    {enabled : Bool} (hw : (Write.state c d enabled).Proper e) :
    ((Write.state c d enabled).record e).constraints ≠ e.constraints := by
  intro hsame
  rw [Write.record_state] at hsame
  rcases hw.1 with rfl | ⟨entry, hc, -⟩
  · have hnext := congrArg Registry.next hsame
    simp [Registry.enroll, Registry.issue] at hnext
  · have hget : (e.constraints.put c ⟨d, enabled, d.backing (.caller e.labels)⟩).entries.get? c
        = some entry := (congrArg (fun r => r.entries.get? c) hsame).trans hc
    rw [Registry.get?_put_self, Option.some.injEq] at hget
    have hstated : e.stated (.constraint c) = some entry.backing :=
      Option.map_eq_some_iff.2 ⟨entry, hc, rfl⟩
    exact h.label_ne hstated (congrArg (fun entry => entry.backing.label) hget).symm

theorem constraints_switch_ne {c : ConstraintId} {enabled : Bool}
    (hw : (Write.switch c enabled : Write α).Proper e) :
    ((Write.switch c enabled : Write α).record e).constraints ≠ e.constraints := by
  obtain ⟨entry, hc, hne⟩ := hw
  intro hsame
  rw [Write.record_switch hc] at hsame
  have hget := congrArg (fun r => r.entries.get? c) hsame
  simp only [Registry.get?_put_self, hc, Option.some.injEq] at hget
  exact hne (congrArg ConstraintEntry.enabled hget).symm

theorem constraints_retract_ne {c : ConstraintId} (hw : (Write.retract c : Write α).Proper e) :
    ((Write.retract c : Write α).record e).constraints ≠ e.constraints := by
  obtain ⟨entry, hc⟩ := hw
  intro hsame
  have hget := congrArg (fun r => r.entries.get? c) hsame
  simp [hc, Write.record, Registry.strike, Registry.get?_erase] at hget

theorem unsolved_issue_ne (e : Engine α) (p : Priority) (target : α) :
    unsolved ((Write.want e.vars.issue.1 p target).record e).vars ≠ unsolved e.vars := by
  intro hsame
  have hnext := congrArg Registry.next hsame
  change ((Write.want e.vars.issue.1 p target).record e).vars.next = e.vars.next at hnext
  simp [Write.record, Registry.enroll, Registry.issue] at hnext

theorem unsolved_forget_ne {x : VariableId} (hw : (Write.forget x : Write α).Proper e) :
    unsolved ((Write.forget x : Write α).record e).vars ≠ unsolved e.vars := by
  obtain ⟨entry, hx⟩ := hw.1
  intro hsame
  have hget := congrArg (fun r => r.entries.get? x) hsame
  simp [get?_unsolved, hx, Write.record, Registry.strike, Registry.get?_erase] at hget

theorem get?_record_want (e : Engine α) (x : VariableId) (p : Priority) (target : α) :
    ((Write.want x p target).record e).vars.entries.get? x
      = some (.wanted (.caller e.labels) x p target (e.vars.entries.get? x)) :=
  e.vars.get?_put_self x _

theorem unsolved_priority_ne {x : VariableId} {entry : VariableEntry α} {p : Priority} {target : α}
    (hx : e.vars.entries.get? x = some entry) (hp : entry.priority ≠ p) :
    unsolved ((Write.want x p target).record e).vars ≠ unsolved e.vars := by
  intro hsame
  have hpriority := (entry_of_unsolved hsame (get?_record_want e x p target) hx).1
  exact hp hpriority.symm

/-- A new pin has a label that no constraint has had. -/
theorem Registered.unsolved_pin_ne (h : e.Registered) {x : VariableId} {entry : VariableEntry α}
    (hx : e.vars.entries.get? x = some entry) (hpin : entry.pin.isSome = true) (target : α) :
    unsolved ((Write.want x entry.priority target).record e).vars ≠ unsolved e.vars := by
  intro hsame
  obtain ⟨pin, hpin⟩ := Option.isSome_iff_exists.1 hpin
  have hrequired := ((h.vars x entry hx).2.2.pin_eq_some hpin).1
  have hkept : VariableEntry.pinFor (.caller e.labels) x entry.priority target = entry.pin :=
    (entry_of_unsolved hsame (get?_record_want e x entry.priority target) hx).2.2
  rw [VariableEntry.pinFor, if_pos hrequired, hpin, Option.some.injEq] at hkept
  have hstated : e.stated (.var x) = some pin := Option.bind_eq_some_iff.2 ⟨entry, hx, hpin⟩
  exact h.label_ne hstated (congrArg Constraint.label hkept).symm

theorem unsolved_target_ne {x : VariableId} {entry : VariableEntry α} {target : α}
    (hx : e.vars.entries.get? x = some entry) (htarget : entry.target ≠ target) :
    unsolved ((Write.move x target).record e).vars ≠ unsolved e.vars := by
  intro hsame
  rw [Write.record_move hx] at hsame
  have hmoved := e.vars.get?_put_self x { entry with target := target }
  exact htarget (entry_of_unsolved hsame hmoved hx).2.1.symm

/-! ### Calls that change a registry -/

/-- A call that writes anything changes a registry, or suggests a target again. -/
theorem Registered.revises_of_writes (h : e.Registered) {w : Write α} {ws : List (Write α)}
    (hws : c.writes e = w :: ws) (hproper : e.AllProper (w :: ws))
    (hafter : (c.perform e).2 = (e.writeAll (w :: ws)).markChanged) :
    e.Revises c ∨ e.SuggestsAgain c := by
  have hfirst := Command.writesFirst hws
  have hvars (hne : unsolved (w.record e).vars ≠ unsolved e.vars) :
      e.Revises c ∨ e.SuggestsAgain c := by
    have hsame : (c.perform e).2.vars = (w.record e).vars := by
      rw [hafter]
      exact (writeAll_states_vars hfirst.states).trans (write_vars e w)
    refine .inl (.inl ?_)
    rwa [hsame]
  have hconstraints (hne : (w.record e).constraints ≠ e.constraints) (hone : ws = []) :
      e.Revises c ∨ e.SuggestsAgain c := by
    subst hone
    refine .inl (.inr ?_)
    rw [hafter]
    exact (write_constraints e w).trans_ne hne
  cases hfirst with
  | create target p => exact hvars (unsolved_issue_ne e p target)
  | forget x => exact hvars (unsolved_forget_ne hproper.1)
  | want hx _ hpin => exact hvars (h.unsolved_pin_ne hx hpin _)
  | @move x target entry hx hnew hpin =>
    by_cases htarget : entry.target = target
    · subst htarget
      exact .inr ⟨x, entry, rfl, hx, hpin, hnew⟩
    · exact hvars (unsolved_target_ne hx htarget)
  | prioritize hx hnew => exact hvars (unsolved_priority_ne hx hnew)
  | state | restate => exact hconstraints (h.constraints_state_ne hproper.1) rfl
  | switch => exact hconstraints (constraints_switch_ne hproper.1) rfl
  | retract c => exact hconstraints (constraints_retract_ne hproper.1) rfl

/-- Suggesting a target again changes no registry, and takes a block away all the same. -/
theorem Registered.suggestsAgain_perform (h : e.Registered) (hc : e.SuggestsAgain c) :
    (c.perform e).2.vars = e.vars ∧ (c.perform e).2.constraints = e.constraints ∧
      (c.perform e).2.rebuildBlocked = false := by
  obtain ⟨x, entry, rfl, hx, hpin, hself⟩ := hc
  have hwrites : (Command.suggest x entry.target).writes e = [.move x entry.target] := by
    simp [Command.writes, hx, hself, hpin]
  have hrecord : (Write.move x entry.target).record e = e := by
    rw [Write.record_move hx, Registry.put_of_get? hx]
  have hrefusal : (Command.suggest x entry.target).refusal e = none :=
    Command.refusal_of_known ((List.findSome?_singleton ..).trans (h.fault_known hx))
  obtain ⟨err, hrefused, -⟩ | ⟨-, hperform, -⟩ := h.perform_cases (.suggest x entry.target)
  · rw [hrefusal] at hrefused
    cases hrefused
  · rw [hperform, Command.effect_of_writes hwrites, carryOut_singleton, hrecord]
    exact ⟨apply_vars _ e, apply_constraints _ e, rfl⟩

theorem Registered.not_revises_of_suggestsAgain (h : e.Registered) (hc : e.SuggestsAgain c) :
    ¬e.Revises c := by
  obtain ⟨hvars, hconstraints, -⟩ := h.suggestsAgain_perform hc
  rintro (hne | hne)
  · exact hne (congrArg unsolved hvars)
  · exact hne hconstraints

/-! ## Blocked engines -/

/-- The call tries to rebuild the solver and fails. -/
def FailsRebuild (e : Engine α) (c : Command α) : Prop :=
  ∃ cause, (c.perform e).2.journal.events = e.journal.events ++ [.rebuildFailed cause]

theorem options_kept (options : EngineOptions) : Kept fun e : Engine α => e.options = options where
  write e w _ h _ := by
    have hrecord : (w.record e).options = e.options := by
      cases w <;> simp only [Write.record] <;> split <;> rfl
    exact ((apply_rest _ _).1.trans hrecord).trans h
  markChanged _ h := h
  refresh e _ h := (congrArg Engine.options (bare_refresh e)).trans h
  note _ _ _ h := h

theorem readValues_rest (e : Engine α) :
    e.readValues.rebuildBlocked = e.rebuildBlocked ∧ e.readValues.journal = e.journal := by
  rcases e.readValues_cases with ⟨-, h⟩ | ⟨s, -, -, h⟩ <;> rw [h] <;> exact ⟨rfl, rfl⟩

theorem ensureLive_of_blocked (h : e.rebuildBlocked = true) : e.ensureLive = e :=
  if_pos (Bool.or_eq_true_iff.2 (.inr h))

theorem ensureLive_of_free (hdead : e.isLive = false) (hfree : e.rebuildBlocked = false) :
    e.ensureLive = match replay e.options.steps e.vars e.constraints with
      | .ok s => e.adopt s
      | .error cause => e.failRebuild cause := by
  have hstale : ¬(e.solver.isSome || e.rebuildBlocked) = true := by
    rw [hfree, show e.solver.isSome = false from hdead]
    simp
  exact if_neg hstale

omit [Scalar α] in
theorem adopt_blocked (s : Solver α) (e : Engine α) :
    (e.adopt s).rebuildBlocked = e.rebuildBlocked := by
  unfold adopt emit
  dsimp only
  split <;> rfl

omit [Scalar α] in
theorem failRebuild_rest (cause : SolverError) (e : Engine α) :
    (e.failRebuild cause).options = e.options ∧
      (e.failRebuild cause).rebuildBlocked = !e.options.retryFailedRebuild := by
  unfold failRebuild emit
  dsimp only
  split <;> exact ⟨rfl, rfl⟩

/-- Only an engine that is not blocked fails to rebuild, and one that does not retry is blocked
from then on. -/
theorem refresh_failed {cause : SolverError} (hretry : e.options.retryFailedRebuild = false)
    (hevents : e.refresh.journal.events = e.journal.events ++ [.rebuildFailed cause]) :
    e.rebuildBlocked = false ∧ e.refresh.rebuildBlocked = true := by
  unfold Engine.refresh at hevents ⊢
  rw [(readValues_rest _).2] at hevents
  rw [(readValues_rest _).1]
  cases hblocked : e.rebuildBlocked with
  | true => simp [ensureLive_of_blocked hblocked] at hevents
  | false =>
    rcases e.ensureLive_cases with ⟨-, h⟩ | ⟨hnone, s, -, h⟩ | ⟨-, cause', -, h⟩
    · simp [h] at hevents
    · have hadopted := (adopt_turns (by rw [isLive, hnone]; rfl) s : Turns e _ _).events
      rw [h, hadopted] at hevents
      cases hhooked : e.hooked <;> simp [hhooked] at hevents
    · rw [h, (failRebuild_rest cause' e).2, hretry]
      exact ⟨rfl, rfl⟩

/-- A block stays until a registry is changed or a target is suggested again. -/
theorem Registered.blocked_perform (h : e.Registered) (hblocked : e.rebuildBlocked = true)
    (hc : ¬(e.Revises c ∨ e.SuggestsAgain c)) : (c.perform e).2.rebuildBlocked = true := by
  have hstep := h.step c
  generalize hafter : (c.perform e).2 = e' at hstep ⊢
  cases hstep with
  | stay | takeDirty | listen | stopListening => exact hblocked
  | carry _ hws hproper => exact absurd (h.revises_of_writes hws hproper hafter) hc
  | read x =>
    unfold Engine.refresh
    rw [(readValues_rest _).1, ensureLive_of_blocked hblocked]
    exact hblocked

theorem Registered.exists_revision (h : e.Registered) (hblocked : e.rebuildBlocked = true)
    (hfree : (e.after history).rebuildBlocked = false) :
    ∃ g₁ c g₂, history = g₁ ++ c :: g₂ ∧
      ((e.after g₁).Revises c ∨ (e.after g₁).SuggestsAgain c) := by
  induction history generalizing e with
  | nil =>
    rw [show e.after [] = e from rfl, hblocked] at hfree
    cases hfree
  | cons c history ih =>
    by_cases hc : e.Revises c ∨ e.SuggestsAgain c
    · exact ⟨[], c, history, rfl, hc⟩
    · obtain ⟨g₁, d, g₂, rfl, hd⟩ := ih (h.after [c]) (h.blocked_perform hblocked hc) hfree
      exact ⟨c :: g₁, d, g₂, rfl, hd⟩

/-- A rebuild fails in a read of an engine that is not blocked, which blocks it. -/
theorem Registered.failsRebuild_blocks (h : e.Registered) (hhooked : e.hooked = true)
    (hretry : e.options.retryFailedRebuild = false) (hc : c ≠ .stopListening)
    (hfails : e.FailsRebuild c) :
    e.rebuildBlocked = false ∧ (c.perform e).2.rebuildBlocked = true := by
  obtain ⟨cause, hevents⟩ := hfails
  obtain ⟨event, hturn, hmay⟩ := h.perform_turns hc hhooked
  have hsame := hturn.events
  rw [hhooked, if_pos rfl, hevents, List.append_cancel_left_eq] at hsame
  obtain rfl := Option.toList_eq_singleton_iff.1 hsame.symm
  obtain ⟨x, rfl⟩ := Command.isRead_iff.1 (hmay _ rfl)
  have hstep := h.step (.read x)
  generalize ((Command.read x).perform e).2 = e' at hstep hevents ⊢
  cases hstep with
  | stay => simp at hevents
  | carry hmutation => cases hmutation
  | read => exact refresh_failed hretry hevents

/-- Between two failed rebuilds of an engine that does not retry them, a registry is changed or a
target is suggested again. -/
theorem Registered.revision_between (h : e.Registered) (haccounted : e.Accounted)
    (hretry : e.options.retryFailedRebuild = false) {h₁ h₂ h₃ : List (Command α)} {c₁ c₂ : Command α}
    (hheard : Heard (h₁ ++ c₁ :: (h₂ ++ c₂ :: h₃))) (hfails₁ : (e.after h₁).FailsRebuild c₁)
    (hfails₂ : (e.after (h₁ ++ c₁ :: h₂)).FailsRebuild c₂) :
    ∃ g₁ c g₂, h₂ = g₁ ++ c :: g₂ ∧ ((e.after (h₁ ++ c₁ :: g₁)).Revises c ∨
      (e.after (h₁ ++ c₁ :: g₁)).SuggestsAgain c) := by
  have happend (earlier later : List (Command α)) :
      e.after (earlier ++ later) = (e.after earlier).after later := List.foldl_append
  -- what holds at either of the two calls
  have hat (earlier : List (Command α)) {c : Command α} (later : List (Command α))
      (hsplit : h₁ ++ c₁ :: (h₂ ++ c₂ :: h₃) = earlier ++ c :: later)
      (hfails : (e.after earlier).FailsRebuild c) : (e.after earlier).rebuildBlocked = false ∧
        (e.after (earlier ++ [c])).rebuildBlocked = true := by
    rw [hsplit] at hheard
    have hthere := h.accounted_after haccounted fun d hd => hheard d (List.mem_append_left _ hd)
    have hoptions := ((options_kept e.options).after h rfl earlier).2
    rw [happend]
    exact (h.after earlier).failsRebuild_blocks hthere.hooked (hoptions ▸ hretry)
      (hheard c (by simp)) hfails
  have hblocked := (hat h₁ _ rfl hfails₁).2
  have hfree := (hat (h₁ ++ c₁ :: h₂) h₃ (by simp) hfails₂).1
  rw [show h₁ ++ c₁ :: h₂ = (h₁ ++ [c₁]) ++ h₂ by simp, happend] at hfree
  obtain ⟨g₁, c, g₂, hsplit, hc⟩ := (h.after _).exists_revision hblocked hfree
  refine ⟨g₁, c, g₂, hsplit, ?_⟩
  rw [show h₁ ++ c₁ :: g₁ = (h₁ ++ [c₁]) ++ g₁ by simp, happend]
  exact hc

/-! ## The whole story -/

/-- What its events tell about an engine. -/
structure Told (e : Engine α) : Prop where
  /-- Each loss is followed by failed rebuilds and then by a rebuild, the last one perhaps not yet. -/
  rounds : ∃ w ∈ BoxLayout.rounds∗, e.journal.events <+: w
  invalidations : e.health.invalidations = e.journal.events.countP SolverEvent.isInvalidated
  rebuilds : e.health.rebuilds = e.journal.events.countP SolverEvent.isRebuilt
  failedRebuilds : e.health.failedRebuilds = e.journal.events.countP SolverEvent.isRebuildFailed
  lastError : e.health.lastError = (e.journal.events.filterMap SolverEvent.cause?).getLast?
  live : e.isLive = true ↔ e.health.invalidations = e.health.rebuilds
  lost : e.isLive = false → e.health.invalidations = e.health.rebuilds + 1
  pending : e.isLive = false → e.outdated = true

omit [Scalar α] in
theorem Accounted.told (h : e.Accounted) : e.Told := by
  have htally := h.health.trans (Health.tally_eq e.journal.events)
  have hbalance := h.course.countP_isInvalidated
  refine ⟨h.course.prefix_rounds, ?_, ?_, ?_, ?_, ?_, ?_, h.pending⟩ <;> rw [htally]
  · cases hlive : e.isLive <;> simp [hbalance, hlive]
  · intro hdead
    simp [hbalance, hdead]

/-- After every history in which the engine is listened to from the start, the events tell all
about the recovery of the engine. A mutation may report the loss of the solver, and a read a
rebuild or a failed one, and nothing else is reported.

Without retries, two failed rebuilds have a call between them that changes a registry, with one
exception. Suggesting again an undefined target, which does not compare equal to itself, takes
the block away and changes no registry. -/
theorem events_tell_recovery (id : EngineId) (options : EngineOptions) {history : List (Command α)}
    (hheard : Heard history) :
    let e₀ : Engine α := (Engine.create id options).listen
    let e := e₀.after history
    e.Told ∧
    (∀ c : Command α, c ≠ .stopListening → ∃ event : Option SolverEvent,
      (c.perform e).2.journal.events = e.journal.events ++ event.toList ∧
        ∀ ev ∈ event, c.MayReport ev) ∧
    (options.retryFailedRebuild = false → ∀ h₁ c₁ h₂ c₂ h₃, history = h₁ ++ c₁ :: (h₂ ++ c₂ :: h₃) →
      (e₀.after h₁).FailsRebuild c₁ → (e₀.after (h₁ ++ c₁ :: h₂)).FailsRebuild c₂ →
        ∃ g₁ c g₂, h₂ = g₁ ++ c :: g₂ ∧ ((e₀.after (h₁ ++ c₁ :: g₁)).Revises c ∨
          (e₀.after (h₁ ++ c₁ :: g₁)).SuggestsAgain c)) ∧
    (∀ c : Command α, e.SuggestsAgain c → ¬e.Revises c ∧ (c.perform e).2.rebuildBlocked = false) := by
  intro e₀ e
  have hreg : e₀.Registered := (Registered.create id options).congr rfl rfl rfl rfl
  have haccounted : e₀.Accounted := accounted_listen id options
  have hafter : e.Accounted := hreg.accounted_after haccounted hheard
  refine ⟨hafter.told, fun c hc => ?_, ?_, fun c hc => ?_⟩
  · obtain ⟨event, hturn, hmay⟩ := (hreg.after history).perform_turns hc hafter.hooked
    refine ⟨event, ?_, hmay⟩
    rw [hturn.events, hafter.hooked, if_pos rfl]
  · rintro hretry h₁ c₁ h₂ c₂ h₃ rfl hfails₁ hfails₂
    exact hreg.revision_between haccounted hretry hheard hfails₁ hfails₂
  · have hthere : e.Registered := hreg.after history
    exact ⟨hthere.not_revises_of_suggestsAgain hc, (hthere.suggestsAgain_perform hc).2.2⟩

/-- A variable that is pinned to one value and held at another. Rebuilding the solver is tried
once, once more after a variable is created, and then when the constraint is switched off. -/
theorem events_tell_recovery_conflict :
    let x : VariableId := ⟨⟨0⟩, 0⟩
    let c : ConstraintId := ⟨⟨0⟩, 0⟩
    let held : List (Command Rat) := [.createVariable 1 .p0,
      .createConstraint ⟨.ofUnknown x, .equal, .ofConstant 2, .p0⟩ true]
    let between : List (Command Rat) := [.read x, .createVariable 5 .p3]
    let history := held ++ .read x :: (between ++ .read x :: [.setEnabled c false, .read x])
    let e₀ : Engine Rat := (Engine.create ⟨0⟩ ⟨false, 100⟩).listen
    Heard history ∧ (e₀.after history).Told ∧
      (e₀.after history).journal.events = [.invalidated .unsatisfiableConstraint,
        .rebuildFailed .unsatisfiableConstraint, .rebuildFailed .unsatisfiableConstraint, .rebuilt] ∧
      (e₀.after held).FailsRebuild (.read x) ∧
      (e₀.after (held ++ .read x :: between)).FailsRebuild (.read x) ∧
      ∃ g₁ c g₂, between = g₁ ++ c :: g₂ ∧ ((e₀.after (held ++ .read x :: g₁)).Revises c ∨
        (e₀.after (held ++ .read x :: g₁)).SuggestsAgain c) := by
  intro x c held between history e₀
  have hheard : Heard history := by simp [Heard, history, held, between]
  have hfails₁ : (e₀.after held).FailsRebuild (.read x) :=
    ⟨.unsatisfiableConstraint, by decide +kernel⟩
  have hfails₂ : (e₀.after (held ++ .read x :: between)).FailsRebuild (.read x) :=
    ⟨.unsatisfiableConstraint, by decide +kernel⟩
  obtain ⟨htold, -, hbetween, -⟩ := events_tell_recovery ⟨0⟩ ⟨false, 100⟩ hheard
  exact ⟨hheard, htold, by decide +kernel, hfails₁, hfails₂,
    hbetween rfl held _ between _ _ rfl hfails₁ hfails₂⟩

/-- The target of a variable is undefined, and it is suggested again between two reads. Both of
them fail to rebuild the solver, and no call between them changes a registry. -/
theorem undefined_target_retries :
    let x : VariableId := ⟨⟨1⟩, 0⟩
    let undefined : Float := 0 / 0
    let created : List (Command Float) := [.createVariable undefined .p3]
    let between : List (Command Float) := [.suggest x undefined]
    let e₀ : Engine Float := (Engine.create ⟨1⟩ ⟨false, 100⟩).listen
    (e₀.after created).FailsRebuild (.read x) ∧
      (e₀.after (created ++ .read x :: between)).FailsRebuild (.read x) ∧
      ¬∃ g₁ c g₂, between = g₁ ++ c :: g₂ ∧ (e₀.after (created ++ .read x :: g₁)).Revises c := by
  intro x undefined created between e₀
  have hreg : e₀.Registered := (Registered.create ⟨1⟩ ⟨false, 100⟩).congr rfl rfl rfl rfl
  have hentry : ∃ entry ∈ (e₀.after (created ++ [.read x])).vars.entries.get? x,
      undefined = entry.target ∧ entry.pin = none ∧ (entry.target == entry.target) = false := by
    decide +kernel
  obtain ⟨entry, hx, htarget, hpin, hself⟩ := hentry
  have hagain : (e₀.after (created ++ [.read x])).SuggestsAgain (.suggest x undefined) :=
    ⟨x, entry, congrArg (Command.suggest x) htarget, hx, hpin, hself⟩
  refine ⟨⟨.nonFiniteValue, by decide +kernel⟩, ⟨.nonFiniteValue, by decide +kernel⟩, ?_⟩
  rintro ⟨g₁, c, g₂, hsplit, hc⟩
  obtain ⟨rfl, rfl, rfl⟩ : g₁ = [] ∧ c = .suggest x undefined ∧ g₂ = [] := by
    cases g₁ <;> simp_all [between]
  exact (hreg.after _).not_revises_of_suggestsAgain hagain hc

end BoxLayout.Engine
