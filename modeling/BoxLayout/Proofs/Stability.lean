-- SUMMARY: Reads agree with each other between mutations, and stay at the last live value while there is no solver.
import BoxLayout.Proofs.Bookkeeping
import BoxLayout.Proofs.Recovery
import BoxLayout.Scalar.Exact

/-!
# Stable reads

A read may find a solver, rebuild one, fail to, or be kept from trying, and it brings the
values of all variables up to date as far as it can. What it takes the values from is the
supply of the engine. After a read the supply is used up, or else rebuilding would fail
again: this is why the next read shows the same.

Without a live read no value is written anywhere but in new entries, whatever is suggested,
changed or removed in the meantime. So values last until the next live read.
-/

namespace BoxLayout.Engine

variable {α : Type} [Scalar α] {e e' : Engine α} {c : Command α} {x : VariableId}

/-! ## Where values come from -/

/-- The solver from which a read takes new values: the one at hand, unless they are up to date,
or else the one that can be rebuilt. -/
def supply (e : Engine α) : Option (Solver α) :=
  match e.solver with
  | some s => if e.outdated then some s else none
  | none =>
    if e.rebuildBlocked then none
    else (replay e.options.steps e.vars e.constraints).toOption

/-- The variables with the values that a solver has for them. -/
def solvedBy (vars : VariableRegistry α) (s : Solver α) : VariableRegistry α :=
  vars.mapEntries fun x entry => { entry with solved := s.updateVariables.value x.backing }

theorem supply_of_live {s : Solver α} (hs : e.solver = some s) :
    e.supply = if e.outdated then some s else none := by
  unfold supply
  rw [hs]

theorem supply_of_blocked (hs : e.solver = none) (hblocked : e.rebuildBlocked = true) :
    e.supply = none := by
  unfold supply
  rw [hs]
  exact if_pos hblocked

/-- A read takes everything from the supply, and leaves nothing to take. -/
theorem refresh_supply (e : Engine α) : e.refresh.supply = none ∧
    ((e.supply = none ∧ e.refresh.vars = e.vars) ∨
      ∃ s, e.supply = some s ∧ e.refresh.vars = solvedBy e.vars s ∧ e.refresh.isLive = true) := by
  unfold Engine.refresh
  rcases e.ensureLive_cases with ⟨hkept, h⟩ | ⟨hnone, s, hreplay, h⟩ | ⟨hnone, cause, hreplay, h⟩
  · rw [h]
    rcases e.readValues_cases with ⟨hstale, hread⟩ | ⟨s, houtdated, hs, hread⟩
    · have hsupply : e.supply = none := by
        cases hs : e.solver with
        | none => exact supply_of_blocked hs (hkept.resolve_left (by simp [hs]))
        | some s => simp [supply_of_live hs, hstale.resolve_right (by simp [hs])]
      rw [hread]
      exact ⟨hsupply, .inl ⟨hsupply, rfl⟩⟩
    · rw [hread]
      exact ⟨rfl, .inr ⟨s, (supply_of_live hs).trans (if_pos houtdated), rfl, rfl⟩⟩
  · -- a solver that was just built is read from in any case
    obtain ⟨-, hvars, -, -, hsolver, houtdated⟩ := adopt_fields s e
    rw [h]
    rcases (e.adopt s).readValues_cases with ⟨hstale, -⟩ | ⟨t, -, ht, hread⟩
    · rw [houtdated, hsolver] at hstale
      simp at hstale
    obtain rfl : s = t := Option.some.inj (hsolver.symm.trans ht)
    have hblocked : e.rebuildBlocked = false := by
      cases hblocked : e.rebuildBlocked with
      | false => rfl
      | true =>
        have hkept := hsolver
        rw [← h, ensureLive_of_blocked hblocked, hnone] at hkept
        cases hkept
    have hsupply : e.supply = some s := by simp [supply, hnone, hblocked, hreplay, Except.toOption]
    rw [hread, hvars]
    exact ⟨rfl, .inr ⟨s, hsupply, rfl, rfl⟩⟩
  · -- rebuilding fails again as long as the registries are the same
    obtain ⟨-, hvars, hconstraints, -, hsolver⟩ := failRebuild_fields cause e
    have hread : (e.failRebuild cause).readValues = e.failRebuild cause := by
      rcases (e.failRebuild cause).readValues_cases with ⟨-, hread⟩ | ⟨t, -, ht, -⟩
      · exact hread
      · rw [hsolver, hnone] at ht
        cases ht
    rw [h, hread]
    refine ⟨?_, .inl ⟨?_, hvars⟩⟩
    · simp [supply, hsolver, hnone, hvars, hconstraints, (failRebuild_rest cause e).1, hreplay,
        Except.toOption]
    · simp [supply, hnone, hreplay, Except.toOption]

/-- What a read of the variable answers, if the variable is known. -/
def shown (e : Engine α) (x : VariableId) : α := e.refresh.solvedValue x

/-- Without supply a read shows the value at hand. -/
theorem shown_of_no_supply (h : e.supply = none) (x : VariableId) : e.shown x = e.solvedValue x := by
  rcases e.refresh_supply.2 with ⟨-, hvars⟩ | ⟨s, hs, -⟩
  · unfold shown solvedValue
    rw [hvars]
  · rw [h] at hs
    cases hs

/-- Only the supply and the variables matter to what is shown. -/
theorem shown_congr (hsupply : e'.supply = e.supply) (hvars : e'.vars = e.vars) (x : VariableId) :
    e'.shown x = e.shown x := by
  unfold shown solvedValue
  rcases e.refresh_supply.2 with ⟨hnone, h⟩ | ⟨s, hs, h, -⟩
  · rcases e'.refresh_supply.2 with ⟨-, h'⟩ | ⟨s', hs', -⟩
    · rw [h, h', hvars]
    · rw [hsupply, hnone] at hs'
      cases hs'
  · rcases e'.refresh_supply.2 with ⟨hnone', -⟩ | ⟨s', hs', h', -⟩
    · rw [hsupply, hs] at hnone'
      cases hnone'
    · rw [hsupply, hs] at hs'
      cases hs'
      rw [h, h', hvars]

theorem shown_refresh (e : Engine α) (x : VariableId) : e.refresh.shown x = e.shown x :=
  shown_of_no_supply e.refresh_supply.1 x

/-! ## Reading twice -/

omit [Scalar α] in
theorem fault_congr (hid : e'.id = e.id) (hhandles : e'.vars.handles = e.vars.handles)
    (x : VariableId) : e'.fault ⟨.var, x⟩ = e.fault ⟨.var, x⟩ := by
  have hregisters : e'.registers ⟨.var, x⟩ = e.registers ⟨.var, x⟩ := by
    refine Bool.eq_iff_iff.2 ?_
    change e'.vars.entries.contains x = true ↔ e.vars.entries.contains x = true
    rw [OrderedMap.contains_iff, OrderedMap.contains_iff]
    exact iff_of_eq (congrArg (x ∈ ·) hhandles)
  unfold fault
  rw [hregisters, hid]

theorem Registered.read_answer (h : e.Registered) (x : VariableId) :
    ((Command.read x).perform e).1 = match e.fault ⟨.var, x⟩ with
      | some err => .error err
      | none => .ok (.number (e.shown x)) := by
  have hrefusal : (Command.read x).refusal e = e.fault ⟨.var, x⟩ := by
    cases hfault : e.fault ⟨.var, x⟩ with
    | some err => exact Command.refusal_of_fault ((List.findSome?_singleton ..).trans hfault)
    | none => exact Command.refusal_of_known ((List.findSome?_singleton ..).trans hfault)
  rcases h.perform_cases (.read x) with ⟨err, hrefused, hperform⟩ | ⟨hnone, hperform, -⟩
  · rw [hperform, ← hrefusal, hrefused]
  · rw [hperform, ← hrefusal, hnone]
    rfl

/-- What is no mutation leaves everything as it was that a read depends on. -/
theorem Registered.perform_query (h : e.Registered) (hc : c.isMutation = false) :
    (c.perform e).2.id = e.id ∧ (c.perform e).2.vars.handles = e.vars.handles ∧
      ∀ x, (c.perform e).2.shown x = e.shown x := by
  have hstep := h.step c
  generalize (c.perform e).2 = e' at hstep ⊢
  cases hstep with
  | stay => exact ⟨rfl, rfl, fun _ => rfl⟩
  | carry hmutation =>
    rw [hc] at hmutation
    cases hmutation
  | read =>
    have hid : e.refresh.bare.id = e.bare.id := congrArg Engine.id (bare_refresh e)
    exact ⟨hid, handles_refresh e, shown_refresh e⟩
  | takeDirty | listen | stopListening => exact ⟨rfl, rfl, shown_congr (e := e) rfl rfl⟩

theorem Registered.after_queries (h : e.Registered) {calls : List (Command α)}
    (hcalls : ∀ c ∈ calls, c.isMutation = false) :
    (e.after calls).id = e.id ∧ (e.after calls).vars.handles = e.vars.handles ∧
      ∀ x, (e.after calls).shown x = e.shown x := by
  induction calls generalizing e with
  | nil => exact ⟨rfl, rfl, fun _ => rfl⟩
  | cons c calls ih =>
    obtain ⟨hid, hhandles, hshown⟩ := h.perform_query (hcalls c List.mem_cons_self)
    obtain ⟨hid', hhandles', hshown'⟩ :=
      ih (h.after [c]) fun d hd => hcalls d (List.mem_cons_of_mem c hd)
    exact ⟨hid'.trans hid, hhandles'.trans hhandles, fun x => (hshown' x).trans (hshown x)⟩

theorem Registered.read_after_queries (h : e.Registered) {calls : List (Command α)}
    (hcalls : ∀ c ∈ calls, c.isMutation = false) (x : VariableId) :
    ((Command.read x).perform (e.after calls)).1 = ((Command.read x).perform e).1 := by
  obtain ⟨hid, hhandles, hshown⟩ := h.after_queries hcalls
  rw [(h.after calls).read_answer, h.read_answer, fault_congr hid hhandles, hshown]

/-! ## Stretches without a live read -/

/-- The call reads a value and leaves a live engine. -/
def ReadsLive (e : Engine α) (c : Command α) : Prop :=
  c.isRead = true ∧ (c.perform e).1.isOk = true ∧ (c.perform e).2.isLive = true

/-- None of the calls reads a value and leaves a live engine. -/
def NeverReadsLive (e : Engine α) : List (Command α) → Prop
  | [] => True
  | c :: calls => ¬e.ReadsLive c ∧ NeverReadsLive (c.perform e).2 calls

instance (e : Engine α) (c : Command α) : Decidable (e.ReadsLive c) :=
  inferInstanceAs (Decidable (_ ∧ _))

instance NeverReadsLive.decidable (e : Engine α) :
    (calls : List (Command α)) → Decidable (e.NeverReadsLive calls)
  | [] => .isTrue trivial
  | c :: calls =>
    have := NeverReadsLive.decidable (c.perform e).2 calls
    inferInstanceAs (Decidable (_ ∧ _))

theorem NeverReadsLive.snoc {calls : List (Command α)} (h : e.NeverReadsLive (calls ++ [c])) :
    e.NeverReadsLive calls ∧ ¬(e.after calls).ReadsLive c := by
  induction calls generalizing e with
  | nil => exact ⟨trivial, h.1⟩
  | cons d calls ih =>
    obtain ⟨hcalls, hc⟩ := ih h.2
    exact ⟨⟨h.1, hcalls⟩, hc⟩

/-- A live read uses up the supply. -/
theorem Registered.no_supply_of_readsLive (h : e.Registered) (hc : e.ReadsLive c) :
    (c.perform e).2.supply = none := by
  obtain ⟨x, rfl⟩ := Command.isRead_iff.1 hc.1
  rcases h.perform_cases (.read x) with ⟨err, -, hperform⟩ | ⟨-, hperform, -⟩
  · have hok := hc.2.1
    rw [hperform] at hok
    cases hok
  · rw [hperform]
    exact e.refresh_supply.1

/-! ### Values through a write -/

/-- A write gives a value to a new variable at most. -/
theorem solved_write (e : Engine α) (w : Write α) {entry' : VariableEntry α}
    (hx : (e.write w).vars.entries.get? x = some entry') :
    (∃ entry, e.vars.entries.get? x = some entry ∧ entry.solved = entry'.solved) ∨
      e.vars.entries.get? x = none ∧ ∃ p, w = .want x p entry'.solved := by
  rw [write_vars] at hx
  cases w with
  | want y p target =>
    rw [Write.record_want] at hx
    simp only [Registry.enroll, Registry.get?_put, Function.update_apply] at hx
    split at hx
    · next hxy =>
      subst hxy
      cases hx
      cases hold : e.vars.entries.get? x with
      | none => exact .inr ⟨rfl, p, by simp [VariableEntry.wanted]⟩
      | some old => exact .inl ⟨old, rfl, by simp [VariableEntry.wanted]⟩
    · exact .inl ⟨entry', hx, rfl⟩
  | move y target =>
    cases hy : e.vars.entries.get? y with
    | none =>
      rw [Write.record_move_unknown hy] at hx
      exact .inl ⟨entry', hx, rfl⟩
    | some old =>
      rw [Write.record_move hy] at hx
      simp only [Registry.get?_put, Function.update_apply] at hx
      split at hx
      · next hxy =>
        subst hxy
        cases hx
        exact .inl ⟨old, hy, rfl⟩
      · exact .inl ⟨entry', hx, rfl⟩
  | forget y =>
    change (e.vars.strike y).entries.get? x = some entry' at hx
    simp only [Registry.strike, Registry.get?_erase, Function.update_apply] at hx
    split at hx
    · cases hx
    · exact .inl ⟨entry', hx, rfl⟩
  | state c d enabled => exact .inl ⟨entry', hx, rfl⟩
  | switch c enabled =>
    cases hc : e.constraints.entries.get? c with
    | none =>
      rw [Write.record_switch_unknown hc] at hx
      exact .inl ⟨entry', hx, rfl⟩
    | some old =>
      rw [Write.record_switch hc] at hx
      exact .inl ⟨entry', hx, rfl⟩
  | retract c => exact .inl ⟨entry', hx, rfl⟩

/-- What a call can begin to write. After that it only states constraints. -/
structure Begins (e : Engine α) (c : Command α) (w : Write α) (ws : List (Write α)) : Prop where
  states : ∀ w ∈ ws, ∃ c d enabled, w = .state c d enabled
  /-- A call writes about an unknown variable only if it creates it. -/
  creates : ∀ x p target, w = .want x p target → e.vars.entries.get? x = none →
    c = .createVariable target p ∧ x = e.vars.issue.1
  removes : ∀ x, w = .forget x → c = .removeVariable x

theorem begins_of_writes {w : Write α} {ws : List (Write α)} (hws : c.writes e = w :: ws) :
    e.Begins c w ws := by
  have hfirst := Command.writesFirst hws
  refine ⟨hfirst.states, fun x p target hw hunknown => ?_, fun x hw => ?_⟩
  · subst hw
    cases hfirst with
    | create => exact ⟨rfl, rfl⟩
    | want hknown | prioritize hknown =>
      rw [hunknown] at hknown
      cases hknown
  · subst hw
    cases hfirst
    rfl

/-- The variables after the first write are the variables after the call. -/
theorem vars_carryOut {w : Write α} {ws : List (Write α)} (hws : c.writes e = w :: ws) :
    (e.carryOut (c.writes e)).vars = (e.write w).vars := by
  rw [hws]
  exact writeAll_states_vars (begins_of_writes hws).states

/-! ### Values through a call -/

/-- A call that is no live read gives a value to a variable only by creating it. -/
theorem Registered.solved_perform (h : e.Registered) (hc : ¬e.ReadsLive c)
    {entry' : VariableEntry α} (hx : (c.perform e).2.vars.entries.get? x = some entry') :
    (∃ entry, e.vars.entries.get? x = some entry ∧ entry.solved = entry'.solved) ∨
      ∃ p, c = .createVariable entry'.solved p ∧ (c.perform e).1 = .ok (.handle x) := by
  unfold ReadsLive at hc
  rcases h.perform_cases c with ⟨err, -, hperform⟩ | ⟨-, hperform, -⟩
  · rw [hperform] at hx
    exact .inl ⟨entry', hx, rfl⟩
  rw [hperform] at hx hc ⊢
  have hcarried (hx : (e.carryOut (c.writes e)).vars.entries.get? x = some entry') :
      (∃ entry, e.vars.entries.get? x = some entry ∧ entry.solved = entry'.solved) ∨
        ∃ p, c = .createVariable entry'.solved p ∧
          (Except.ok (c.reply e) : Except EngineError (Reply α)) = .ok (.handle x) := by
    cases hws : c.writes e with
    | nil =>
      rw [hws] at hx
      exact .inl ⟨entry', hx, rfl⟩
    | cons w ws =>
      rw [vars_carryOut hws] at hx
      rcases solved_write e w hx with hold | ⟨hnew, p, rfl⟩
      · exact .inl hold
      · obtain ⟨rfl, rfl⟩ := (begins_of_writes hws).creates x p _ rfl hnew
        exact .inr ⟨p, rfl, rfl⟩
  cases c with
  | read y =>
    have hdead : ¬e.refresh.isLive = true := fun hlive => hc ⟨rfl, rfl, hlive⟩
    change e.refresh.vars.entries.get? x = some entry' at hx
    rcases e.refresh_supply.2 with ⟨-, hvars⟩ | ⟨s, -, -, hlive⟩
    · rw [hvars] at hx
      exact .inl ⟨entry', hx, rfl⟩
    · exact absurd hlive hdead
  | takeDirty | listen | stopListening => exact .inl ⟨entry', hx, rfl⟩
  | _ => exact hcarried hx

theorem Registered.solved_after (h : e.Registered) {stretch : List (Command α)}
    (hstretch : e.NeverReadsLive stretch) {entry' : VariableEntry α}
    (hx : (e.after stretch).vars.entries.get? x = some entry') :
    (∃ entry, e.vars.entries.get? x = some entry ∧ entry.solved = entry'.solved) ∨
      ∃ earlier p later, stretch = earlier ++ .createVariable entry'.solved p :: later ∧
        ((Command.createVariable entry'.solved p).perform (e.after earlier)).1 = .ok (.handle x) := by
  induction stretch generalizing e with
  | nil => exact .inl ⟨entry', hx, rfl⟩
  | cons c stretch ih =>
    obtain ⟨hc, hstretch⟩ := hstretch
    rcases ih (h.after [c]) hstretch hx with ⟨entry, hentry, hsolved⟩ | ⟨earlier, p, later, rfl, hp⟩
    · rw [← hsolved]
      rcases h.solved_perform hc hentry with hold | ⟨p, rfl, hp⟩
      · exact .inl hold
      · exact .inr ⟨[], p, stretch, rfl, hp⟩
    · exact .inr ⟨c :: earlier, p, later, rfl, hp⟩

/-- What is created later is not known yet. -/
theorem Registered.not_known_of_created (h : e.Registered) {earlier : List (Command α)} {v : α}
    {p : Priority}
    (hp : ((Command.createVariable v p).perform (e.after earlier)).1 = .ok (.handle x)) :
    x ∉ e.vars.handles := by
  intro hx
  obtain ⟨entry, hx⟩ := OrderedMap.mem_keys_iff.1 hx
  have hissued : issuedHandle ((Command.createVariable v p).perform (e.after earlier)).1
      = some ⟨.var, x⟩ := by rw [hp]; rfl
  have hindex : x.index = (e.after earlier).vars.next :=
    ((h.after earlier).issuedHandle_perform hissued).1
  have hgrown : e.vars.next ≤ (e.after earlier).vars.next :=
    ((nextIndex_kept _ .var).after h (Nat.le_refl _) earlier).2
  exact absurd (h.vars x entry hx).2.1 (by omega)

/-- A read that leaves no live engine answers with the value at hand. -/
theorem Registered.read_dead (h : e.Registered) (hread : ¬e.ReadsLive (.read x))
    {entry : VariableEntry α} (hx : e.vars.entries.get? x = some entry) :
    ((Command.read x).perform e).1 = .ok (.number entry.solved) := by
  have hanswer := h.read_answer x
  rw [h.fault_known hx] at hanswer
  have hsupply : e.supply = none := by
    rcases e.refresh_supply.2 with ⟨hnone, -⟩ | ⟨s, -, -, hlive⟩
    · exact hnone
    · refine absurd ⟨rfl, by rw [hanswer]; rfl, ?_⟩ hread
      rcases h.perform_cases (.read x) with ⟨err, -, hperform⟩ | ⟨-, hperform, -⟩
      · rw [hperform] at hanswer
        cases hanswer
      · rw [hperform]
        exact hlive
  rw [hanswer, shown_of_no_supply hsupply, solvedValue, hx]

/-! ## Every reachable engine -/

/-- Between mutations all reads of a variable answer alike, in any order. And while no read
leaves a live engine, whatever else is called, a read answers with the value that the variable
had after the last live read, or at its creation if it is newer. -/
theorem reads_stable_and_frozen (id : EngineId) (options : EngineOptions)
    (history : List (Command α)) :
    let e₀ : Engine α := .create id options
    let e := e₀.after history
    (∀ calls x, (∀ c ∈ calls, c.isMutation = false) →
      ((Command.read x).perform (e.after calls)).1 = ((Command.read x).perform e).1) ∧
    ((history = [] ∨ ∃ earlier c, history = earlier ++ [c] ∧ (e₀.after earlier).ReadsLive c) →
      ∀ stretch x, e.NeverReadsLive (stretch ++ [.read x]) → x ∈ (e.after stretch).vars.handles →
        ∃ v, ((Command.read x).perform (e.after stretch)).1 = .ok (.number v) ∧
          (x ∈ e.vars.handles → ((Command.read x).perform e).1 = .ok (.number v)) ∧
          (x ∉ e.vars.handles → ∃ earlier p later,
            stretch = earlier ++ .createVariable v p :: later ∧
              ((Command.createVariable v p).perform (e.after earlier)).1 = .ok (.handle x))) := by
  intro e₀ e
  have hreg₀ : e₀.Registered := .create id options
  have hreg : e.Registered := hreg₀.after history
  refine ⟨fun calls x hcalls => hreg.read_after_queries hcalls x, fun hlast stretch x hdead hx => ?_⟩
  -- all values have been taken over at the beginning of the stretch
  have hsupply : e.supply = none := by
    rcases hlast with rfl | ⟨earlier, c, rfl, hc⟩
    · rfl
    · rw [show e = (c.perform (e₀.after earlier)).2 from List.foldl_append ..]
      exact (hreg₀.after earlier).no_supply_of_readsLive hc
  obtain ⟨hstretch, hread⟩ := hdead.snoc
  obtain ⟨entry', hx⟩ := OrderedMap.mem_keys_iff.1 hx
  refine ⟨entry'.solved, (hreg.after stretch).read_dead hread hx, ?_⟩
  rcases hreg.solved_after hstretch hx with ⟨entry, hentry, hsolved⟩ | ⟨earlier, p, later, hsplit, hp⟩
  · refine ⟨fun _ => ?_, fun hnew => absurd (OrderedMap.mem_keys_iff.2 ⟨entry, hentry⟩) hnew⟩
    rw [hreg.read_answer, hreg.fault_known hentry, shown_of_no_supply hsupply, solvedValue, hentry,
      ← hsolved]
  · exact ⟨fun hknown => absurd hknown (hreg.not_known_of_created hp),
      fun _ => ⟨earlier, p, later, hsplit, hp⟩⟩

/-- A variable pinned to 1 is read. Then it is held at 2, which no solver can meet, and another
variable is created at 7. Whatever is suggested from there on, the values stay 1 and 7. -/
theorem reads_stable_and_frozen_conflict :
    let x : VariableId := ⟨⟨0⟩, 0⟩
    let y : VariableId := ⟨⟨0⟩, 1⟩
    let e₀ : Engine Rat := .create ⟨0⟩ ⟨true, 100⟩
    let e := e₀.after [.createVariable 1 .p0, .read x]
    let stretch : List (Command Rat) := [.createConstraint ⟨.ofUnknown x, .equal, .ofConstant 2, .p0⟩ true,
      .createVariable 7 .p2, .read x, .suggest x 5, .suggest y 9, .setVariablePriority y .p0, .read y]
    ((e₀.after [.createVariable 1 .p0]).ReadsLive (.read x) ∧ e.NeverReadsLive (stretch ++ [.read x]) ∧
      x ∈ (e.after stretch).vars.handles) ∧
    (∃ v, ((Command.read x).perform (e.after stretch)).1 = .ok (.number v) ∧
      ((Command.read x).perform e).1 = .ok (.number v)) ∧
    (e.after stretch).shown x = 1 ∧ (e.after stretch).shown y = 7 := by
  intro x y e₀ e stretch
  have hlast : (e₀.after [.createVariable 1 .p0]).ReadsLive (.read x) := by decide +kernel
  have hdead : e.NeverReadsLive (stretch ++ [.read x]) := by decide +kernel
  have hx : x ∈ (e.after stretch).vars.handles := by decide +kernel
  obtain ⟨v, hv, hold, -⟩ := (reads_stable_and_frozen ⟨0⟩ ⟨true, 100⟩ [.createVariable 1 .p0, .read x]).2
    (.inr ⟨_, _, rfl, hlast⟩) stretch x hdead hx
  exact ⟨⟨hlast, hdead, hx⟩, ⟨v, hv, hold (by decide +kernel)⟩, by decide +kernel, by decide +kernel⟩

end BoxLayout.Engine
