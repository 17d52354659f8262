-- SUMMARY: Writes to the registries, one handle at a time, each with the change of the solver that goes along with it.
import BoxLayout.Proofs.Registries

/-!
# Writes

Whatever a call changes in the registries, it changes by writes. A write is about one
handle: a variable is wanted in some way, moved or forgotten, a constraint is stated,
switched or retracted. The solver, if there is one, is changed along with each write.

A write is proper if the registries are ready for it. Proper writes leave registries that
fit together, so what holds of all calls is shown once for each kind of write.
-/

namespace BoxLayout

open Attempt

/-! ## Writing a registry -/

namespace Registry

variable {kind : HandleKind} {ε : Type}

/-- Register something under a handle, which counts as issued from now on. -/
def enroll (r : Registry kind ε) (h : Handle kind) (entry : ε) : Registry kind ε :=
  { r.put h entry with next := max r.next (h.index + 1) }

/-- Take out what is registered under a handle. -/
def strike (r : Registry kind ε) (h : Handle kind) : Registry kind ε :=
  { r with entries := r.entries.erase h }

theorem enroll_issued (r : Registry kind ε) (entry : ε) :
    r.enroll r.issue.1 entry = r.issue.2.put r.issue.1 entry := by
  unfold enroll issue put
  simp

theorem enroll_known {r : Registry kind ε} {h : Handle kind} (hindex : h.index < r.next)
    (entry : ε) : r.enroll h entry = r.put h entry := by
  unfold enroll put
  rw [Nat.max_eq_left hindex]

/-! ### The order of the handles -/

/-- The handles stand in the order in which they were issued. -/
def Ascending (r : Registry kind ε) : Prop := r.handles.Pairwise fun h h' => h.index < h'.index

section

variable {r : Registry kind ε} {h : Handle kind} {entry old : ε}

/-- A new handle goes to the end, where it belongs. -/
theorem Ascending.enroll_issued (hr : r.Ascending)
    (hissued : ∀ h entry, r.entries.get? h = some entry → h.index < r.next) :
    (r.enroll r.issue.1 entry).Ascending := by
  have hnew : r.issue.1 ∉ r.entries.keys := fun hmem => by
    obtain ⟨old, hget⟩ := OrderedMap.mem_keys_iff.1 hmem
    exact Nat.lt_irrefl _ (hissued _ old hget)
  change ((r.entries.insert r.issue.1 entry).keys).Pairwise _
  rw [OrderedMap.keys_insert, if_neg hnew, List.pairwise_append]
  refine ⟨hr, List.pairwise_singleton _ _, fun h hh h' hh' => ?_⟩
  obtain ⟨old, hget⟩ := OrderedMap.mem_keys_iff.1 hh
  rw [List.mem_singleton.1 hh']
  exact hissued h old hget

/-- Writing over an entry keeps its place. -/
theorem Ascending.put (hr : r.Ascending) (hget : r.entries.get? h = some old) :
    (r.put h entry).Ascending := by
  change ((r.entries.insert h entry).keys).Pairwise _
  rw [OrderedMap.keys_insert, if_pos (OrderedMap.mem_keys_iff.2 ⟨old, hget⟩)]
  exact hr

theorem Ascending.strike (hr : r.Ascending) : (r.strike h).Ascending := by
  change ((r.entries.erase h).keys).Pairwise _
  rw [OrderedMap.keys_erase]
  exact hr.filter _

end

end Registry

/-- The entry of a variable that is wanted in some way from now on. -/
def VariableEntry.wanted {α : Type} [Scalar α] (label : Label) (x : VariableId) (p : Priority)
    (target : α) (old : Option (VariableEntry α)) : VariableEntry α :=
  ⟨p, target, pinFor label x p target, (old.map solved).getD target⟩

/-! ## Writes -/

/-- A change of what is registered under one handle. -/
inductive Write (α : Type) where
  /-- The variable is wanted like this, under a new label if it is required. -/
  | want (x : VariableId) (p : Priority) (target : α)
  /-- The target of a variable without a pin is moved. -/
  | move (x : VariableId) (target : α)
  | forget (x : VariableId)
  /-- The constraint states this, under a new label. -/
  | state (c : ConstraintId) (d : Definition α) (enabled : Bool)
  | switch (c : ConstraintId) (enabled : Bool)
  | retract (c : ConstraintId)

namespace Write

variable {α : Type} [Scalar α]

/-- The engine with the write in its registries. -/
def record (e : Engine α) : Write α → Engine α
  | want x p target =>
    let entry := VariableEntry.wanted (.caller e.labels) x p target (e.vars.entries.get? x)
    { e with vars := e.vars.enroll x entry, labels := e.labels + 1 }
  | move x target =>
    match e.vars.entries.get? x with
    | some entry => { e with vars := e.vars.put x { entry with target := target } }
    | none => e
  | forget x => { e with vars := e.vars.strike x }
  | state c d enabled =>
    let entry := ⟨d, enabled, d.backing (.caller e.labels)⟩
    { e with constraints := e.constraints.enroll c entry, labels := e.labels + 1 }
  | switch c enabled =>
    match e.constraints.entries.get? c with
    | some entry =>
      { e with constraints := e.constraints.put c { entry with enabled := enabled } }
    | none => e
  | retract c => { e with constraints := e.constraints.strike c }

/-- The change of the solver that goes along with the write. -/
def change (e : Engine α) : Write α → Attempt SolverError (Solver α) Unit
  | want x p target =>
    let old := e.vars.entries.get? x
    let new := VariableEntry.wanted (.caller e.labels) x p target old
    match old with
    | some entry => do
      entry.leave x
      new.enter x
    | none => new.enter x
  | move x target => Solver.suggestValue x.backing target
  | forget x =>
    match e.vars.entries.get? x with
    | some entry => entry.leave x
    | none => pure ()
  | state c d enabled =>
    let new := d.backing (.caller e.labels)
    match enabled, e.constraints.entries.get? c with
    | true, some entry => Engine.exchange entry.backing new
    | true, none => Solver.addConstraint new
    | false, _ => pure ()
  | switch c enabled =>
    match e.constraints.entries.get? c with
    | some entry =>
      if enabled then Solver.addConstraint entry.backing
      else Solver.removeConstraint entry.backing.label
    | none => pure ()
  | retract c =>
    match e.constraints.entries.get? c with
    | some entry => if entry.enabled then Solver.removeConstraint entry.backing.label else pure ()
    | none => pure ()

/-- The registries are ready for the write. -/
def Proper (e : Engine α) : Write α → Prop
  | want x _ _ => x = e.vars.issue.1 ∨ ∃ entry, e.vars.entries.get? x = some entry
  | move x _ => ∃ entry, e.vars.entries.get? x = some entry ∧ entry.pin = none
  | forget x => (∃ entry, e.vars.entries.get? x = some entry) ∧
      ∀ c entry, e.constraints.entries.get? c = some entry → entry.definition.mentions x = false
  | state c d enabled =>
      (c = e.constraints.issue.1 ∨
        ∃ entry, e.constraints.entries.get? c = some entry ∧ entry.enabled = enabled) ∧
      ∀ y, d.mentions y = true → ∃ known, e.vars.entries.get? y = some known
  | switch c enabled => ∃ entry, e.constraints.entries.get? c = some entry ∧ entry.enabled ≠ enabled
  | retract c => ∃ entry, e.constraints.entries.get? c = some entry

/-! ### What a write records -/

section

variable {e : Engine α} {x : VariableId} {c : ConstraintId}

theorem record_want (e : Engine α) (x : VariableId) (p : Priority) (target : α) :
    (want x p target).record e = { e with
      vars := e.vars.enroll x (.wanted (.caller e.labels) x p target (e.vars.entries.get? x))
      labels := e.labels + 1 } := rfl

theorem record_move {entry : VariableEntry α} (hx : e.vars.entries.get? x = some entry) (target : α) :
    (move x target).record e = { e with vars := e.vars.put x { entry with target := target } } := by
  simp only [record, hx]

theorem record_move_unknown (hx : e.vars.entries.get? x = none) (target : α) :
    (move x target).record e = e := by
  simp only [record, hx]

theorem record_state (e : Engine α) (c : ConstraintId) (d : Definition α) (enabled : Bool) :
    (state c d enabled).record e = { e with
      constraints := e.constraints.enroll c ⟨d, enabled, d.backing (.caller e.labels)⟩
      labels := e.labels + 1 } := rfl

theorem record_switch {entry : ConstraintEntry α} (hc : e.constraints.entries.get? c = some entry)
    (enabled : Bool) : (switch c enabled : Write α).record e
      = { e with constraints := e.constraints.put c { entry with enabled := enabled } } := by
  simp only [record, hc]

theorem record_switch_unknown (hc : e.constraints.entries.get? c = none) (enabled : Bool) :
    (switch c enabled : Write α).record e = e := by
  simp only [record, hc]

/-- Recording a write is a matter of the registries. -/
theorem record_rest (w : Write α) (e : Engine α) :
    (w.record e).solver = e.solver ∧ (w.record e).outdated = e.outdated ∧
      (w.record e).dirty = e.dirty ∧ (w.record e).health = e.health ∧
      (w.record e).hooked = e.hooked ∧ (w.record e).journal = e.journal := by
  cases w with
  | move x target =>
    unfold record
    dsimp only
    split <;> exact ⟨rfl, rfl, rfl, rfl, rfl, rfl⟩
  | switch c enabled =>
    unfold record
    dsimp only
    split <;> exact ⟨rfl, rfl, rfl, rfl, rfl, rfl⟩
  | _ => exact ⟨rfl, rfl, rfl, rfl, rfl, rfl⟩

/-! ### How a write changes the solver -/

theorem change_want_new (hx : e.vars.entries.get? x = none) (p : Priority) (target : α) :
    (want x p target).change e
      = (VariableEntry.wanted (.caller e.labels) x p target none).enter x := by
  simp only [change, hx]

theorem change_want_known {entry : VariableEntry α} (hx : e.vars.entries.get? x = some entry)
    (p : Priority) (target : α) : (want x p target).change e = entry.leave x >>= fun _ =>
      (VariableEntry.wanted (.caller e.labels) x p target (some entry)).enter x := by
  simp only [change, hx]

theorem change_forget {entry : VariableEntry α} (hx : e.vars.entries.get? x = some entry) :
    (forget x : Write α).change e = entry.leave x := by
  simp only [change, hx]

theorem change_state_new (hc : e.constraints.entries.get? c = none) (d : Definition α) :
    (state c d true).change e = Solver.addConstraint (d.backing (.caller e.labels)) := by
  simp only [change, hc]

theorem change_state_known {entry : ConstraintEntry α}
    (hc : e.constraints.entries.get? c = some entry) (d : Definition α) :
    (state c d true).change e = Engine.exchange entry.backing (d.backing (.caller e.labels)) := by
  simp only [change, hc]

theorem change_state_off (e : Engine α) (c : ConstraintId) (d : Definition α) :
    (state c d false).change e = pure () := by
  simp only [change]

theorem change_switch {entry : ConstraintEntry α} (hc : e.constraints.entries.get? c = some entry)
    (enabled : Bool) : (switch c enabled : Write α).change e
      = if enabled then Solver.addConstraint entry.backing
        else Solver.removeConstraint entry.backing.label := by
  simp only [change, hc]

theorem change_retract {entry : ConstraintEntry α} (hc : e.constraints.entries.get? c = some entry) :
    (retract c : Write α).change e
      = if entry.enabled then Solver.removeConstraint entry.backing.label else pure () := by
  simp only [change, hc]

end

end Write

namespace Engine

variable {α : Type} [Scalar α] {e e' : Engine α} {w : Write α} {x : VariableId} {c : ConstraintId}

/-- Write to the registries, and change the solver accordingly. -/
def write (e : Engine α) (w : Write α) : Engine α := (w.record e).apply (w.change e)

def writeAll (e : Engine α) (ws : List (Write α)) : Engine α := ws.foldl write e

/-- Each write is proper when its turn comes. -/
def AllProper (e : Engine α) : List (Write α) → Prop
  | [] => True
  | w :: ws => w.Proper e ∧ (e.write w).AllProper ws

/-- Do what a call has to write. Writing nothing changes nothing. -/
def carryOut (e : Engine α) : List (Write α) → Engine α
  | [] => e
  | w :: ws => (e.writeAll (w :: ws)).markChanged

/-! ## The change of the solver -/

omit [Scalar α] in
/-- What becomes of an engine when its solver is to be changed. -/
theorem apply_cases (m : Attempt SolverError (Solver α) Unit) (e : Engine α) :
    (e.solver = none ∧ e.apply m = e) ∨
    (∃ s s', e.solver = some s ∧ m s = .ok () s' ∧ e.apply m = { e with solver := some s' }) ∨
    ∃ s cause s', e.solver = some s ∧ m s = .error cause s' ∧ e.apply m = e.invalidate cause := by
  unfold apply
  cases hs : e.solver with
  | none => exact Or.inl ⟨rfl, rfl⟩
  | some s =>
    dsimp only
    cases hrun : m s with
    | ok _ s' => exact Or.inr (Or.inl ⟨s, s', rfl, hrun, rfl⟩)
    | error cause s' => exact Or.inr (Or.inr ⟨s, cause, s', rfl, hrun, rfl⟩)

omit [Scalar α] in
theorem apply_of_ok {m : Attempt SolverError (Solver α) Unit} {s t : Solver α}
    (hs : e.solver = some s) (hm : m s = .ok () t) : e.apply m = { e with solver := some t } := by
  unfold apply
  rw [hs]
  dsimp only
  rw [hm]

omit [Scalar α] in
theorem apply_of_error {m : Attempt SolverError (Solver α) Unit} {s t : Solver α}
    {cause : SolverError} (hs : e.solver = some s) (hm : m s = .error cause t) :
    e.apply m = e.invalidate cause := by
  unfold apply
  rw [hs]
  dsimp only
  rw [hm]

omit [Scalar α] in
theorem invalidate_fields (cause : SolverError) (e : Engine α) :
    (e.invalidate cause).id = e.id ∧ (e.invalidate cause).vars = e.vars ∧
      (e.invalidate cause).constraints = e.constraints ∧ (e.invalidate cause).labels = e.labels := by
  unfold invalidate emit
  dsimp only
  split <;> exact ⟨rfl, rfl, rfl, rfl⟩

omit [Scalar α] in
theorem invalidate_solver (cause : SolverError) (e : Engine α) : (e.invalidate cause).solver = none := by
  unfold invalidate emit
  dsimp only
  split <;> rfl

omit [Scalar α] in
theorem invalidate_health (cause : SolverError) (e : Engine α) : (e.invalidate cause).health
    = { e.health with invalidations := e.health.invalidations + 1, lastError := some cause } := by
  unfold invalidate emit
  dsimp only
  split <;> rfl

omit [Scalar α] in
theorem apply_registries (m : Attempt SolverError (Solver α) Unit) (e : Engine α) :
    (e.apply m).id = e.id ∧ (e.apply m).vars = e.vars ∧
      (e.apply m).constraints = e.constraints ∧ (e.apply m).labels = e.labels := by
  obtain ⟨-, h⟩ | ⟨s, s', -, -, h⟩ | ⟨s, cause, s', -, -, h⟩ := e.apply_cases m
  · rw [h]
    exact ⟨rfl, rfl, rfl, rfl⟩
  · rw [h]
    exact ⟨rfl, rfl, rfl, rfl⟩
  · rw [h]
    exact invalidate_fields cause e

omit [Scalar α] in
@[simp] theorem apply_id (m : Attempt SolverError (Solver α) Unit) (e : Engine α) :
    (e.apply m).id = e.id := (apply_registries m e).1

omit [Scalar α] in
@[simp] theorem apply_vars (m : Attempt SolverError (Solver α) Unit) (e : Engine α) :
    (e.apply m).vars = e.vars := (apply_registries m e).2.1

omit [Scalar α] in
@[simp] theorem apply_constraints (m : Attempt SolverError (Solver α) Unit) (e : Engine α) :
    (e.apply m).constraints = e.constraints := (apply_registries m e).2.2.1

omit [Scalar α] in
@[simp] theorem apply_labels (m : Attempt SolverError (Solver α) Unit) (e : Engine α) :
    (e.apply m).labels = e.labels := (apply_registries m e).2.2.2

omit [Scalar α] in
/-- Nothing to change in the solver. -/
theorem apply_pure (e : Engine α) : e.apply (pure ()) = e := by
  obtain ⟨-, h⟩ | ⟨s, s', hs, hrun, h⟩ | ⟨s, cause, s', -, hrun, -⟩ := e.apply_cases (pure ())
  · exact h
  · rw [pure_run] at hrun
    cases hrun
    rw [h, ← hs]
  · cases hrun

omit [Scalar α] in
/-- The solver may be changed before or after the registries are written. -/
theorem apply_withVars (m : Attempt SolverError (Solver α) Unit) (e : Engine α)
    (vars : VariableRegistry α) :
    ({ e with vars := vars } : Engine α).apply m = { e.apply m with vars := vars } := by
  cases e with
  | mk id options solver _ _ labels outdated dirty rebuildBlocked health hooked journal =>
    unfold apply
    cases solver with
    | none => rfl
    | some s =>
      dsimp only
      cases m s with
      | ok _ s' => rfl
      | error cause s' => cases hooked <;> rfl

omit [Scalar α] in
theorem apply_withConstraints (m : Attempt SolverError (Solver α) Unit) (e : Engine α)
    (constraints : ConstraintRegistry α) :
    ({ e with constraints := constraints } : Engine α).apply m
      = { e.apply m with constraints := constraints } := by
  cases e with
  | mk id options solver _ _ labels outdated dirty rebuildBlocked health hooked journal =>
    unfold apply
    cases solver with
    | none => rfl
    | some s =>
      dsimp only
      cases m s with
      | ok _ s' => rfl
      | error cause s' => cases hooked <;> rfl

@[simp] theorem write_id (e : Engine α) (w : Write α) : (e.write w).id = (w.record e).id :=
  apply_id _ _

@[simp] theorem write_vars (e : Engine α) (w : Write α) : (e.write w).vars = (w.record e).vars :=
  apply_vars _ _

@[simp] theorem write_constraints (e : Engine α) (w : Write α) :
    (e.write w).constraints = (w.record e).constraints :=
  apply_constraints _ _

@[simp] theorem write_labels (e : Engine α) (w : Write α) :
    (e.write w).labels = (w.record e).labels :=
  apply_labels _ _

/-! ## Proper writes -/

theorem Registered.want (h : e.Registered) {p : Priority} {target : α}
    (hw : (Write.want x p target).Proper e) : ((Write.want x p target).record e).Registered := by
  let entry := VariableEntry.wanted (.caller e.labels) x p target (e.vars.entries.get? x)
  obtain rfl | ⟨old, hx⟩ := hw
  · have hissued : ({ e with vars := e.vars.issue.2 } : Engine α).Registered :=
      h.grow rfl rfl (Nat.le_succ _) rfl rfl (Nat.le_refl _) rfl (Nat.le_refl _)
    rw [Write.record_want, Registry.enroll_issued]
    exact hissued.putVar _ entry h.varsOwner (Nat.lt_succ_self _) rfl
  · obtain ⟨howner, hindex, -⟩ := h.vars x old hx
    rw [Write.record_want, Registry.enroll_known hindex]
    exact h.putVar x entry howner hindex rfl

theorem Registered.move (h : e.Registered) {target : α} (hw : (Write.move x target).Proper e) :
    ((Write.move x target).record e).Registered := by
  obtain ⟨old, hx, hpin⟩ := hw
  obtain ⟨howner, hindex, hfits⟩ := h.vars x old hx
  let moved : VariableEntry α := { old with target := target }
  rw [Write.record_move hx]
  refine h.writeVar x (some moved) (e.vars.get?_put x moved) ?_ ?_ ?_
  · rintro v hv
    cases hv
    have hreq := hfits.pin_eq_none hpin
    obtain ⟨n, hn, -⟩ := hfits
    refine ⟨howner, hindex, n, hn, ?_⟩
    unfold VariableEntry.pinFor
    rw [if_neg (by simpa [moved] using hreq)]
    exact hpin
  · intro k hk
    exact absurd (hpin.symm.trans hk) (by simp)
  · intro hnone
    cases hnone

theorem Registered.forget (h : e.Registered) (hw : (Write.forget x : Write α).Proper e) :
    ((Write.forget x : Write α).record e).Registered := by
  refine h.writeVar x none (e.vars.get?_erase x) ?_ ?_ fun _ => hw.2
  · intro v hv
    cases hv
  · intro k hk
    cases hk

theorem Registered.state (h : e.Registered) {d : Definition α} {enabled : Bool}
    (hw : (Write.state c d enabled).Proper e) :
    ((Write.state c d enabled).record e).Registered := by
  obtain ⟨rfl | ⟨old, hc, -⟩, hknown⟩ := hw
  · have hissued : ({ e with constraints := e.constraints.issue.2 } : Engine α).Registered :=
      h.grow rfl rfl (Nat.le_refl _) rfl rfl (Nat.le_succ _) rfl (Nat.le_refl _)
    rw [Write.record_state, Registry.enroll_issued]
    exact hissued.putConstraint _ _ h.constraintsOwner (Nat.lt_succ_self _) rfl hknown
  · obtain ⟨howner, hindex, -⟩ := h.constraints c old hc
    rw [Write.record_state, Registry.enroll_known hindex]
    exact h.putConstraint c _ howner hindex rfl hknown

theorem Registered.switch (h : e.Registered) {enabled : Bool}
    (hw : (Write.switch c enabled : Write α).Proper e) :
    ((Write.switch c enabled : Write α).record e).Registered := by
  obtain ⟨old, hc, -⟩ := hw
  obtain ⟨howner, hindex, hfits⟩ := h.constraints c old hc
  rw [Write.record_switch hc]
  refine h.writeConstraint c (some { old with enabled := enabled }) (e.constraints.get?_put c _)
    ?_ ?_ ?_
  · rintro d hd
    cases hd
    exact ⟨howner, hindex, hfits⟩
  · rintro d hd o k hne ho hlabel
    cases hd
    refine hne (h.apart o (.constraint c) k old.backing ho ?_ hlabel)
    exact Option.map_eq_some_iff.2 ⟨old, hc, rfl⟩
  · rintro d y hd hmentions
    cases hd
    exact h.mentioned c old y hc hmentions

theorem Registered.retract (h : e.Registered) :
    ((Write.retract c : Write α).record e).Registered := by
  refine h.writeConstraint c none (e.constraints.get?_erase c) ?_ ?_ ?_
  · intro d hd
    cases hd
  · intro d hd
    cases hd
  · intro d y hd
    cases hd

/-- Registries that fit together still do so after a proper write. -/
theorem Registered.record (h : e.Registered) (hw : w.Proper e) : (w.record e).Registered := by
  cases w with
  | want x p target => exact h.want hw
  | move x target => exact h.move hw
  | forget x => exact h.forget hw
  | state c d enabled => exact h.state hw
  | switch c enabled => exact h.switch hw
  | retract c => exact h.retract

theorem Registered.write (h : e.Registered) (hw : w.Proper e) : (e.write w).Registered :=
  (h.record hw).congr (write_id e w) (write_vars e w) (write_constraints e w) (write_labels e w)

theorem Registered.markChanged (h : e.Registered) : e.markChanged.Registered :=
  h.congr rfl rfl rfl rfl

/-- What every proper write keeps holds after a list of them. -/
theorem writeAll_induction {P : Engine α → Prop} (hwrite : ∀ e w, P e → w.Proper e → P (e.write w))
    {ws : List (Write α)} (hws : e.AllProper ws) (h : P e) : P (e.writeAll ws) := by
  induction ws generalizing e with
  | nil => exact h
  | cons w ws ih => exact ih hws.2 (hwrite e w h hws.1)

/-- What every proper write and marking the engine keeps holds after a call. -/
theorem carryOut_induction {P : Engine α → Prop}
    (hwrite : ∀ e w, P e → w.Proper e → P (e.write w)) (hmark : ∀ e, P e → P e.markChanged)
    {ws : List (Write α)} (hws : e.AllProper ws) (h : P e) : P (e.carryOut ws) := by
  cases ws with
  | nil => exact h
  | cons w ws => exact hmark _ (writeAll_induction hwrite hws h)

/-! ## The demand after a write -/

theorem demand_write (e : Engine α) (w : Write α) : (e.write w).demand = (w.record e).demand := by
  unfold demand
  rw [write_vars, write_constraints]

theorem demand_want (e : Engine α) (x : VariableId) (p : Priority) (target : α) :
    ((Write.want x p target).record e).demand = e.demand.withVariable x
      (some (.wanted (.caller e.labels) x p target (e.vars.entries.get? x))) :=
  demand_writeVar x _ (e.vars.get?_put x _) rfl

theorem demand_move {entry : VariableEntry α} (hx : e.vars.entries.get? x = some entry) (target : α) :
    ((Write.move x target).record e).demand
      = e.demand.withVariable x (some { entry with target := target }) := by
  rw [Write.record_move hx]
  exact demand_writeVar x _ (e.vars.get?_put x _) rfl

theorem demand_forget (e : Engine α) (x : VariableId) :
    ((Write.forget x : Write α).record e).demand = e.demand.withVariable x none :=
  demand_writeVar x none (e.vars.get?_erase x) rfl

theorem demand_state (e : Engine α) (c : ConstraintId) (d : Definition α) (enabled : Bool) :
    ((Write.state c d enabled).record e).demand = e.demand.withConstraint (.constraint c)
      (if enabled then some (d.backing (.caller e.labels)) else none) := by
  rw [Write.record_state]
  exact demand_writeConstraint c (some ⟨d, enabled, d.backing (.caller e.labels)⟩) rfl
    (e.constraints.get?_put c _)

theorem demand_switch {entry : ConstraintEntry α} (hc : e.constraints.entries.get? c = some entry)
    (enabled : Bool) : ((Write.switch c enabled : Write α).record e).demand
      = e.demand.withConstraint (.constraint c) (if enabled then some entry.backing else none) := by
  rw [Write.record_switch hc]
  exact demand_writeConstraint c (some { entry with enabled := enabled }) rfl
    (e.constraints.get?_put c _)

theorem demand_retract (e : Engine α) (c : ConstraintId) :
    ((Write.retract c : Write α).record e).demand = e.demand.withConstraint (.constraint c) none :=
  demand_writeConstraint c none rfl (e.constraints.get?_erase c)

end Engine

end BoxLayout
