-- SUMMARY: What each call of an engine refuses, answers and writes, and that mutations do so.
import BoxLayout.Engine.Command
import BoxLayout.Proofs.Writes

/-!
# Calls as writes

A call looks at its handles in turn and is refused at the first one that the engine does
not know. A variable that is still mentioned is not removed. Any other mutation succeeds: it
writes what it has to write and answers, and whatever else it looks up on the way is there,
because registered constraints mention registered variables only.
-/

namespace BoxLayout

open Attempt

/-- A handle of either kind. -/
abbrev AnyHandle := (kind : HandleKind) × Handle kind

section

variable {α : Type}

/-- The handles in an expression, in the order of its terms. -/
def Linear.handles (l : Linear VariableId α) : List AnyHandle :=
  l.unknowns.map fun x => ⟨.var, x⟩

def Definition.handles (d : Definition α) : List AnyHandle := d.lhs.handles ++ d.rhs.handles

namespace Engine

/-- Something is registered under the handle. -/
def registers (e : Engine α) : AnyHandle → Bool
  | ⟨.var, x⟩ => e.vars.entries.contains x
  | ⟨.constraint, c⟩ => e.constraints.entries.contains c

/-- What is wrong with a handle. -/
def fault (e : Engine α) (g : AnyHandle) : Option EngineError :=
  if g.2.owner = e.id then
    match e.registers g with
    | true => none
    | false => some (.unknown g.1 g.2)
  else
    some (.foreign g.1 g.2 e.id)

/-- State anew what mentions a variable and is enabled. -/
def restatements (e : Engine α) (x : VariableId) : List (Write α) :=
  (e.constraints.entries.entries.filter fun k => k.2.enabled && k.2.definition.mentions x).map
    fun k => .state k.1 k.2.definition true

/-- State another definition under the handle of a constraint. -/
def restate (e : Engine α) (c : ConstraintId) (change : Definition α → Definition α) :
    List (Write α) :=
  match e.constraints.entries.get? c with
  | some entry => [.state c (change entry.definition) entry.enabled]
  | none => []

end Engine

/-- The solved value of a variable, zero if it is not registered. -/
def Engine.solvedValue [Scalar α] (e : Engine α) (x : VariableId) : α :=
  match e.vars.entries.get? x with
  | some entry => entry.solved
  | none => 0

end

namespace Engine.Command

variable {α : Type} [Scalar α]

/-- The handles in a call, in the order in which the engine looks at them. -/
def handles : Command α → List AnyHandle
  | removeVariable x | suggest x _ | setVariablePriority x _ => [⟨.var, x⟩]
  | read x | priorityOf x | targetOf x | referencing x => [⟨.var, x⟩]
  | createConstraint d _ => d.handles
  | setLhs c lhs => ⟨.constraint, c⟩ :: lhs.handles
  | setRhs c rhs => ⟨.constraint, c⟩ :: rhs.handles
  | removeConstraint c | setRelation c _ | setConstraintPriority c _ => [⟨.constraint, c⟩]
  | setEnabled c _ | definitionOf c => [⟨.constraint, c⟩]
  | createVariable .. | listVariables | listConstraints => []
  | takeDirty | listen | stopListening => []

/-- What stands in the way of a call whose handles are in order. -/
def hindrance (e : Engine α) : Command α → Option EngineError
  | removeVariable x => (e.constraints.referencing x).head?.map (.variableInUse x)
  | _ => none

/-- Why the engine refuses a call, if it does. -/
def refusal (e : Engine α) (c : Command α) : Option EngineError :=
  match c.handles.findSome? e.fault with
  | some err => some err
  | none => c.hindrance e

/-- What a call writes that is not refused. -/
def writes (e : Engine α) : Command α → List (Write α)
  | createVariable target p => [.want e.vars.issue.1 p target]
  | removeVariable x => [.forget x]
  | suggest x target =>
    match e.vars.entries.get? x with
    | some entry =>
      if entry.target == target then [] else
      match entry.pin with
      | some _ => [.want x entry.priority target]
      | none => [.move x target]
    | none => []
  | setVariablePriority x p =>
    match e.vars.entries.get? x with
    | some entry =>
      if entry.priority = p then []
      else .want x p entry.target ::
        if entry.pin.isSome && !p.isRequired then e.restatements x else []
    | none => []
  | createConstraint d enabled => [.state e.constraints.issue.1 d enabled]
  | removeConstraint c => [.retract c]
  | setLhs c lhs => e.restate c fun d => { d with lhs := lhs }
  | setRhs c rhs => e.restate c fun d => { d with rhs := rhs }
  | setRelation c r => e.restate c fun d => { d with relation := r }
  | setConstraintPriority c p => e.restate c fun d => { d with priority := p }
  | setEnabled c enabled =>
    match e.constraints.entries.get? c with
    | some entry => if entry.enabled = enabled then [] else [.switch c enabled]
    | none => []
  | _ => []

/-- What a call answers that is not refused. -/
def reply (e : Engine α) : Command α → Reply α
  | createVariable .. => .handle e.vars.issue.1
  | read x => .number (e.refresh.solvedValue x)
  | priorityOf x => ((e.vars.entries.get? x).map fun entry => .priority entry.priority).getD .done
  | targetOf x => ((e.vars.entries.get? x).map fun entry => .number entry.target).getD .done
  | listVariables => .handles e.vars.handles
  | createConstraint .. => .handle e.constraints.issue.1
  | definitionOf c =>
    ((e.constraints.entries.get? c).map fun entry => .definition entry.definition entry.enabled).getD
      .done
  | referencing x => .handles (e.constraints.referencing x)
  | listConstraints => .handles e.constraints.handles
  | takeDirty => .flag e.dirty
  | _ => .done

/-- The engine after a call that is not refused. -/
def effect (e : Engine α) : Command α → Engine α
  | read _ => e.refresh
  | takeDirty => e.takeDirty.2
  | listen => e.listen
  | stopListening => e.stopListening
  | c => e.carryOut (c.writes e)

omit [Scalar α] in
theorem refusal_of_fault {e : Engine α} {c : Command α} {err : EngineError}
    (h : c.handles.findSome? e.fault = some err) : c.refusal e = some err := by
  unfold refusal
  rw [h]

omit [Scalar α] in
theorem refusal_of_known {e : Engine α} {c : Command α} (h : c.handles.findSome? e.fault = none) :
    c.refusal e = c.hindrance e := by
  unfold refusal
  rw [h]

/-! ## What a call writes -/

/-- A call writes `w` first and `ws` after it. It has found what it is about, and found that
there is something to change. -/
inductive WritesFirst (e : Engine α) : Command α → Write α → List (Write α) → Prop where
  | create (target : α) (p : Priority) :
      WritesFirst e (.createVariable target p) (.want e.vars.issue.1 p target) []
  | forget (x : VariableId) : WritesFirst e (.removeVariable x) (.forget x) []
  | want {x : VariableId} {target : α} {entry : VariableEntry α}
      (hx : e.vars.entries.get? x = some entry) (hnew : (entry.target == target) = false)
      (hpin : entry.pin.isSome = true) :
      WritesFirst e (.suggest x target) (.want x entry.priority target) []
  | move {x : VariableId} {target : α} {entry : VariableEntry α}
      (hx : e.vars.entries.get? x = some entry) (hnew : (entry.target == target) = false)
      (hpin : entry.pin = none) : WritesFirst e (.suggest x target) (.move x target) []
  | prioritize {x : VariableId} {p : Priority} {entry : VariableEntry α}
      (hx : e.vars.entries.get? x = some entry) (hnew : entry.priority ≠ p) :
      WritesFirst e (.setVariablePriority x p) (.want x p entry.target)
        (if entry.pin.isSome && !p.isRequired then e.restatements x else [])
  | state (d : Definition α) (enabled : Bool) :
      WritesFirst e (.createConstraint d enabled) (.state e.constraints.issue.1 d enabled) []
  | restate {command : Command α} {c : ConstraintId} {entry : ConstraintEntry α}
      (change : Definition α → Definition α) (hc : e.constraints.entries.get? c = some entry)
      (hwrites : command.writes e = e.restate c change) :
      WritesFirst e command (.state c (change entry.definition) entry.enabled) []
  | switch {c : ConstraintId} {enabled : Bool} {entry : ConstraintEntry α}
      (hc : e.constraints.entries.get? c = some entry) (hnew : entry.enabled ≠ enabled) :
      WritesFirst e (.setEnabled c enabled) (.switch c enabled) []
  | retract (c : ConstraintId) : WritesFirst e (.removeConstraint c) (.retract c) []

theorem writesFirst {e : Engine α} {command : Command α} {w : Write α} {ws : List (Write α)}
    (hws : command.writes e = w :: ws) : command.WritesFirst e w ws := by
  have hrestate {c : ConstraintId} (change : Definition α → Definition α)
      (hwrites : command.writes e = e.restate c change) : command.WritesFirst e w ws := by
    have hone := hwrites.symm.trans hws
    unfold Engine.restate at hone
    split at hone
    · next entry hc =>
      cases hone
      exact .restate change hc hwrites
    · cases hone
  cases command with
  | createVariable target p =>
    cases hws
    exact .create target p
  | removeVariable x =>
    cases hws
    exact .forget x
  | suggest x target =>
    simp only [writes] at hws
    split at hws
    · next entry hx =>
      split at hws
      · cases hws
      · next hnew =>
        rw [Bool.not_eq_true] at hnew
        split at hws
        · next hpin =>
          cases hws
          exact .want hx hnew (by rw [hpin]; rfl)
        · next hpin =>
          cases hws
          exact .move hx hnew hpin
    · cases hws
  | setVariablePriority x p =>
    simp only [writes] at hws
    split at hws
    · next entry hx =>
      split at hws
      · cases hws
      · next hnew =>
        obtain ⟨rfl, rfl⟩ := List.cons.inj hws
        exact .prioritize hx hnew
    · cases hws
  | createConstraint d enabled =>
    cases hws
    exact .state d enabled
  | removeConstraint c =>
    cases hws
    exact .retract c
  | setLhs c lhs => exact hrestate (fun d => { d with lhs := lhs }) rfl
  | setRhs c rhs => exact hrestate (fun d => { d with rhs := rhs }) rfl
  | setRelation c r => exact hrestate (fun d => { d with relation := r }) rfl
  | setConstraintPriority c p => exact hrestate (fun d => { d with priority := p }) rfl
  | setEnabled c enabled =>
    simp only [writes] at hws
    split at hws
    · next entry hc =>
      split at hws
      · cases hws
      · next hnew =>
        cases hws
        exact .switch hc hnew
    · cases hws
  | _ => cases hws

/-- After its first write a call only states again what is there. -/
theorem WritesFirst.restates {e : Engine α} {command : Command α} {w w' : Write α}
    {ws : List (Write α)} (h : command.WritesFirst e w ws) (hw' : w' ∈ ws) :
    ∃ c entry, e.constraints.entries.get? c = some entry ∧ w' = .state c entry.definition true := by
  cases h with
  | prioritize =>
    split at hw'
    · obtain ⟨⟨c, entry⟩, hmem, rfl⟩ := List.mem_map.1 hw'
      exact ⟨c, entry, OrderedMap.mem_entries_iff.1 (List.mem_filter.1 hmem).1, rfl⟩
    · cases hw'
  | _ => cases hw'

theorem WritesFirst.states {e : Engine α} {command : Command α} {w : Write α} {ws : List (Write α)}
    (h : command.WritesFirst e w ws) : ∀ w' ∈ ws, ∃ c d enabled, w' = .state c d enabled := by
  intro w' hw'
  obtain ⟨c, entry, -, rfl⟩ := h.restates hw'
  exact ⟨c, entry.definition, true, rfl⟩

/-- A call that writes anything does nothing else. -/
theorem effect_of_writes {e : Engine α} {command : Command α} {w : Write α} {ws : List (Write α)}
    (hws : command.writes e = w :: ws) : command.effect e = e.carryOut (w :: ws) := by
  rw [← hws]
  cases command with
  | read | takeDirty | listen | stopListening => cases hws
  | _ => rfl

end Engine.Command

namespace Engine

variable {α : Type} [Scalar α] {e : Engine α} {x : VariableId} {c : ConstraintId}

/-! ## Looking up handles -/

section

variable {α : Type} {e : Engine α}

theorem fault_var (e : Engine α) (howner : e.vars.owner = e.id) (x : VariableId) :
    (∃ err, e.fault ⟨.var, x⟩ = some err ∧ e.vars.lookup x = .error err) ∨
    ∃ entry, e.fault ⟨.var, x⟩ = none ∧ e.vars.entries.get? x = some entry ∧
      e.vars.lookup x = .ok entry := by
  unfold fault registers OrderedMap.contains Registry.lookup
  dsimp only
  rw [howner]
  by_cases hx : x.owner = e.id
  · rw [if_pos hx, if_pos hx]
    cases e.vars.entries.get? x with
    | none => exact Or.inl ⟨_, rfl, rfl⟩
    | some entry => exact Or.inr ⟨entry, rfl, rfl, rfl⟩
  · rw [if_neg hx, if_neg hx]
    exact Or.inl ⟨_, rfl, rfl⟩

theorem fault_constraint (e : Engine α) (howner : e.constraints.owner = e.id) (c : ConstraintId) :
    (∃ err, e.fault ⟨.constraint, c⟩ = some err ∧ e.constraints.lookup c = .error err) ∨
    ∃ entry, e.fault ⟨.constraint, c⟩ = none ∧ e.constraints.entries.get? c = some entry ∧
      e.constraints.lookup c = .ok entry := by
  unfold fault registers OrderedMap.contains Registry.lookup
  dsimp only
  rw [howner]
  by_cases hc : c.owner = e.id
  · rw [if_pos hc, if_pos hc]
    cases e.constraints.entries.get? c with
    | none => exact Or.inl ⟨_, rfl, rfl⟩
    | some entry => exact Or.inr ⟨entry, rfl, rfl, rfl⟩
  · rw [if_neg hc, if_neg hc]
    exact Or.inl ⟨_, rfl, rfl⟩

end

theorem Registered.fault_known (h : e.Registered) {entry : VariableEntry α}
    (hx : e.vars.entries.get? x = some entry) : e.fault ⟨.var, x⟩ = none := by
  obtain ⟨err, -, hlookup⟩ | ⟨-, hfault, -, -⟩ := e.fault_var h.varsOwner x
  · rw [Registry.lookup_of_get? ((h.vars x entry hx).1.trans h.varsOwner.symm) hx] at hlookup
    cases hlookup
  · exact hfault

/-- The handles in a definition are in order exactly if its variables are registered. -/
theorem Registered.handles_known (h : e.Registered) {d : Definition α} :
    d.handles.findSome? e.fault = none ↔
      ∀ y, d.mentions y = true → ∃ known, e.vars.entries.get? y = some known := by
  have hiff (y : VariableId) :
      e.fault ⟨.var, y⟩ = none ↔ ∃ known, e.vars.entries.get? y = some known := by
    obtain ⟨err, hfault, hlookup⟩ | ⟨known, hfault, hget, -⟩ := e.fault_var h.varsOwner y
    · constructor
      · intro hnone
        rw [hfault] at hnone
        cases hnone
      · rintro ⟨known, hget⟩
        exact h.fault_known hget
    · exact ⟨fun _ => ⟨known, hget⟩, fun _ => hfault⟩
  rw [List.findSome?_eq_none_iff]
  constructor
  · intro hall y hy
    refine (hiff y).1 (hall _ ?_)
    obtain hy | hy := Bool.or_eq_true_iff.1 hy
    · exact List.mem_append_left _ (List.mem_map.2 ⟨y, Linear.mentions_iff.1 hy, rfl⟩)
    · exact List.mem_append_right _ (List.mem_map.2 ⟨y, Linear.mentions_iff.1 hy, rfl⟩)
  · intro hall g hg
    obtain hg | hg := List.mem_append.1 hg
    · obtain ⟨y, hy, rfl⟩ := List.mem_map.1 hg
      exact (hiff y).2 (hall y (Bool.or_eq_true_iff.2 (Or.inl (Linear.mentions_iff.2 hy))))
    · obtain ⟨y, hy, rfl⟩ := List.mem_map.1 hg
      exact (hiff y).2 (hall y (Bool.or_eq_true_iff.2 (Or.inr (Linear.mentions_iff.2 hy))))

theorem Registered.resolve_cases (h : e.Registered) (l : Linear VariableId α) :
    (l.handles.findSome? e.fault = none ∧ l.resolve e.backingOf = .ok (l.rename Handle.backing)) ∨
    ∃ err, l.handles.findSome? e.fault = some err ∧ l.resolve e.backingOf = .error err := by
  have hcases (y : VariableId) := e.fault_var h.varsOwner y
  rw [Linear.handles, List.findSome?_map]
  refine l.resolve_cases (fun y _ hy => ?_) fun y err hy => ?_
  · obtain ⟨err, hfault, -⟩ | ⟨known, -, -, hlookup⟩ := hcases y
    · rw [Function.comp_apply, hfault] at hy
      cases hy
    · rw [backingOf, hlookup]
      rfl
  · obtain ⟨err', hfault, hlookup⟩ | ⟨known, hfault, -⟩ := hcases y
    · rw [Function.comp_apply, hfault] at hy
      cases hy
      rw [backingOf, hlookup]
      rfl
    · rw [Function.comp_apply, hfault] at hy
      cases hy

/-- Stating a definition to the solver takes a new label. -/
theorem Registered.build_cases (h : e.Registered) (d : Definition α) :
    (d.handles.findSome? e.fault = none ∧
      build d e = .ok (d.backing (.caller e.labels)) { e with labels := e.labels + 1 }) ∨
    ∃ err, d.handles.findSome? e.fault = some err ∧ build d e = .error err e := by
  unfold build
  rw [get_bind_run, Definition.handles, List.findSome?_append]
  obtain ⟨hlhs, hlhsRun⟩ | ⟨err, hlhs, hlhsRun⟩ := h.resolve_cases d.lhs
  · rw [hlhs, hlhsRun]
    obtain ⟨hrhs, hrhsRun⟩ | ⟨err, hrhs, hrhsRun⟩ := h.resolve_cases d.rhs
    · rw [hrhs, hrhsRun]
      exact Or.inl ⟨rfl, rfl⟩
    · rw [hrhs, hrhsRun]
      exact Or.inr ⟨err, rfl, rfl⟩
  · rw [hlhs, hlhsRun]
    exact Or.inr ⟨err, rfl, rfl⟩

/-! ## Performing writes -/

/-- The attempt is refused for the given reason and changes nothing, or it carries out the
given writes, which are proper, and gives the answer. -/
def Performs {β : Type} (m : Attempt EngineError (Engine α) β) (e : Engine α)
    (refusal : Option EngineError) (b : β) (ws : List (Write α)) : Prop :=
  match refusal with
  | some err => m e = .error err e
  | none => m e = .ok b (e.carryOut ws) ∧ e.AllProper ws

theorem performs_error {β : Type} {m : Attempt EngineError (Engine α) β} {refusal : Option EngineError}
    {b : β} {ws : List (Write α)} {err : EngineError} (hrefusal : refusal = some err)
    (hm : m e = .error err e) : Performs m e refusal b ws := by
  subst hrefusal
  exact hm

theorem performs_ok {β : Type} {m : Attempt EngineError (Engine α) β} {refusal : Option EngineError}
    {b : β} {ws : List (Write α)} (hrefusal : refusal = none) (hm : m e = .ok b (e.carryOut ws))
    (hws : e.AllProper ws) : Performs m e refusal b ws := by
  subst hrefusal
  exact ⟨hm, hws⟩

/-- Looking something up first. -/
theorem performs_bind {β γ : Type} {m : Attempt EngineError (Engine α) γ}
    {f : γ → Attempt EngineError (Engine α) β} {refusal : Option EngineError} {b : β} {g : γ}
    {ws : List (Write α)} (hm : m e = .ok g e) (h : Performs (f g) e refusal b ws) :
    Performs (m >>= f) e refusal b ws := by
  unfold Performs at h ⊢
  rw [bind_run_ok hm]
  exact h

theorem performs_get_bind {β : Type} {f : Engine α → Attempt EngineError (Engine α) β}
    {refusal : Option EngineError} {b : β} {ws : List (Write α)}
    (h : Performs (f e) e refusal b ws) : Performs (get >>= f) e refusal b ws := h

theorem Performs.bind_pure {β γ : Type} {m : Attempt EngineError (Engine α) β}
    {refusal : Option EngineError} {b : β} {ws : List (Write α)} (h : Performs m e refusal b ws)
    (f : β → γ) : Performs (m >>= fun b => pure (f b)) e refusal (f b) ws := by
  unfold Performs at h ⊢
  cases refusal with
  | some err => exact bind_run_error h
  | none => exact ⟨bind_run_ok h.1, h.2⟩

theorem allProper_singleton {w : Write α} (hw : w.Proper e) : e.AllProper [w] := ⟨hw, trivial⟩

/-- A single write. -/
theorem carryOut_singleton (e : Engine α) (w : Write α) :
    e.carryOut [w] = ((w.record e).apply (w.change e)).markChanged := rfl

omit [Scalar α] in
theorem variableEntry_run (x : VariableId) (e : Engine α) :
    variableEntry x e = match e.vars.lookup x with
      | .ok entry => .ok entry e
      | .error err => .error err e := by
  unfold variableEntry
  rw [get_bind_run]
  cases e.vars.lookup x <;> rfl

omit [Scalar α] in
theorem constraintEntry_run (c : ConstraintId) (e : Engine α) :
    constraintEntry c e = match e.constraints.lookup c with
      | .ok entry => .ok entry e
      | .error err => .error err e := by
  unfold constraintEntry
  rw [get_bind_run]
  cases e.constraints.lookup c <;> rfl

omit [Scalar α] in
theorem modifyEntry_run {entry : ConstraintEntry α} (howner : c.owner = e.constraints.owner)
    (hc : e.constraints.entries.get? c = some entry) (f : ConstraintEntry α → ConstraintEntry α) :
    modifyEntry c f e = .ok () { e with constraints := e.constraints.put c (f entry) } := by
  have hupdate : e.constraints.update c f = .ok (e.constraints.put c (f entry)) := by
    unfold Registry.update
    rw [Registry.lookup_of_get? howner hc]
    rfl
  unfold modifyEntry
  rw [get_bind_run, hupdate]
  rfl

/-! ## Variables -/

theorem Registered.createVariable_performs (h : e.Registered) (target : α) (p : Priority) :
    Performs (modifyGet (Engine.createVariable target p)) e none e.vars.issue.1
      [.want e.vars.issue.1 p target] := by
  refine performs_ok rfl ?_ (allProper_singleton (Or.inl rfl))
  let e₀ : Engine α := { e with vars := e.vars.issue.2, labels := e.labels + 1 }
  let entry := VariableEntry.create (.caller e.labels) e.vars.issue.1 p target
  have hwanted : VariableEntry.wanted (.caller e.labels) e.vars.issue.1 p target none = entry := rfl
  have hvars : (e₀.apply (entry.enter e.vars.issue.1)).vars = e₀.vars := apply_vars _ _
  rw [carryOut_singleton, Write.record_want, Write.change_want_new h.unissued_var,
    h.unissued_var, Registry.enroll_issued, hwanted]
  have happly := apply_withVars (entry.enter e.vars.issue.1) e₀ (e₀.vars.put e.vars.issue.1 entry)
  rw [happly, ← hvars]
  rfl

omit [Scalar α] in
/-- What no constraint refers to is not mentioned. -/
theorem not_mentions (h : (e.constraints.referencing x).head? = none) (c : ConstraintId)
    (entry : ConstraintEntry α) (hc : e.constraints.entries.get? c = some entry) :
    entry.definition.mentions x = false := by
  unfold Registry.referencing at h
  rw [List.head?_eq_none_iff, List.map_eq_nil_iff, List.filter_eq_nil_iff] at h
  simpa using h (c, entry) (OrderedMap.mem_entries_iff.2 hc)

theorem Registered.removeVariable_performs (h : e.Registered) (x : VariableId) :
    Performs (removeVariable x) e ((Command.removeVariable x).refusal e) () [.forget x] := by
  unfold removeVariable
  obtain ⟨err, hfault, hlookup⟩ | ⟨entry, hfault, hx, hlookup⟩ := e.fault_var h.varsOwner x
  · refine performs_error (Command.refusal_of_fault ((List.findSome?_singleton ..).trans hfault)) ?_
    exact bind_run_error (by rw [variableEntry_run, hlookup])
  · have hrefusal : (Command.removeVariable x).refusal e
        = (e.constraints.referencing x).head?.map (.variableInUse x) :=
      Command.refusal_of_known ((List.findSome?_singleton ..).trans hfault)
    refine performs_bind (by rw [variableEntry_run, hlookup]) (performs_get_bind ?_)
    cases hhead : (e.constraints.referencing x).head? with
    | some c =>
      rw [hhead] at hrefusal
      exact performs_error hrefusal rfl
    | none =>
      rw [hhead] at hrefusal
      have hremove : e.vars.remove x = .ok (entry, e.vars.strike x) := by
        unfold Registry.remove
        rw [hlookup]
        rfl
      refine performs_get_bind (performs_bind (by rw [hremove, ofExcept_ok_run]) ?_)
      refine performs_ok hrefusal ?_ (allProper_singleton ⟨⟨entry, hx⟩, not_mentions hhead⟩)
      rw [carryOut_singleton, Write.change_forget hx]
      rfl

theorem Registered.suggest_performs (h : e.Registered) (x : VariableId) (target : α) :
    Performs (suggest x target) e ((Command.suggest x target).refusal e) ()
      ((Command.suggest x target).writes e) := by
  unfold suggest
  obtain ⟨err, hfault, hlookup⟩ | ⟨entry, hfault, hx, hlookup⟩ := e.fault_var h.varsOwner x
  · refine performs_error (Command.refusal_of_fault ((List.findSome?_singleton ..).trans hfault)) ?_
    exact bind_run_error (by rw [variableEntry_run, hlookup])
  · have hrefusal : (Command.suggest x target).refusal e = none :=
      Command.refusal_of_known ((List.findSome?_singleton ..).trans hfault)
    obtain ⟨-, hindex, hfits⟩ := h.vars x entry hx
    refine performs_bind (by rw [variableEntry_run, hlookup]) ?_
    unfold Command.writes
    dsimp only
    rw [hx]
    dsimp only
    split
    · exact performs_ok hrefusal rfl trivial
    cases hpin : entry.pin with
    | some pin =>
      have hreq := (hfits.pin_eq_some hpin).1
      have hwanted : VariableEntry.wanted (.caller e.labels) x entry.priority target (some entry)
          = { entry with
              target := target, pin := some (.pin (.caller e.labels) x.backing target) } := by
        unfold VariableEntry.wanted VariableEntry.pinFor
        rw [if_pos hreq]
        rfl
      refine performs_ok hrefusal ?_ (allProper_singleton (Or.inr ⟨entry, hx⟩))
      rw [carryOut_singleton, Write.record_want, Write.change_want_known hx, hx, hwanted,
        Registry.enroll_known hindex]
      rfl
    | none =>
      refine performs_ok hrefusal ?_ (allProper_singleton ⟨entry, hx, hpin⟩)
      rw [carryOut_singleton, Write.record_move hx, hpin]
      rfl

/-! ## Constraints -/

theorem Registered.createConstraint_performs (h : e.Registered) (d : Definition α) (enabled : Bool) :
    Performs (createConstraint d enabled) e ((Command.createConstraint d enabled).refusal e)
      e.constraints.issue.1 [.state e.constraints.issue.1 d enabled] := by
  unfold createConstraint
  obtain ⟨hhandles, hbuild⟩ | ⟨err, hhandles, hbuild⟩ := h.build_cases d
  · have hproper : (Write.state e.constraints.issue.1 d enabled).Proper e :=
      ⟨Or.inl rfl, h.handles_known.1 hhandles⟩
    refine performs_ok (Command.refusal_of_known hhandles) ((bind_run_ok hbuild).trans ?_)
      (allProper_singleton hproper)
    let e₀ : Engine α := { e with constraints := e.constraints.issue.2, labels := e.labels + 1 }
    let backing := d.backing (.caller e.labels)
    rw [get_bind_run, carryOut_singleton, Write.record_state, Registry.enroll_issued]
    cases enabled with
    | true =>
      have hconstraints : (e₀.apply (Solver.addConstraint backing)).constraints = e₀.constraints :=
        apply_constraints _ _
      have happly := apply_withConstraints (Solver.addConstraint backing) e₀
        (e₀.constraints.put e.constraints.issue.1 ⟨d, true, backing⟩)
      rw [Write.change_state_new h.unissued_constraint, happly, ← hconstraints]
      rfl
    | false =>
      rw [Write.change_state_off, apply_pure]
      rfl
  · exact performs_error (Command.refusal_of_fault hhandles) (bind_run_error hbuild)

theorem Registered.removeConstraint_performs (h : e.Registered) (c : ConstraintId) :
    Performs (removeConstraint c) e ((Command.removeConstraint c).refusal e) () [.retract c] := by
  unfold removeConstraint
  refine performs_get_bind ?_
  obtain ⟨err, hfault, hlookup⟩ | ⟨entry, hfault, hc, hlookup⟩ :=
    e.fault_constraint h.constraintsOwner c
  · have hremove : e.constraints.remove c = .error err := by
      unfold Registry.remove
      rw [hlookup]
      rfl
    refine performs_error (Command.refusal_of_fault ((List.findSome?_singleton ..).trans hfault)) ?_
    rw [hremove]
    rfl
  · have hremove : e.constraints.remove c = .ok (entry, e.constraints.strike c) := by
      unfold Registry.remove
      rw [hlookup]
      rfl
    refine performs_bind (by rw [hremove, ofExcept_ok_run]) ?_
    refine performs_ok (Command.refusal_of_known ((List.findSome?_singleton ..).trans hfault)) ?_
      (allProper_singleton ⟨entry, hc⟩)
    rw [carryOut_singleton, Write.change_retract hc]
    dsimp only
    cases entry.enabled with
    | true => rfl
    | false =>
      rw [if_neg Bool.false_ne_true, if_neg Bool.false_ne_true, apply_pure]
      rfl

/-- The one write of a change of definition, and its refusal. -/
theorem Registered.redefine_performs (h : e.Registered) (c : ConstraintId)
    (change : Definition α → Definition α) {command : Command α} {handles : List AnyHandle}
    (hhandles : command.handles = ⟨.constraint, c⟩ :: handles) (hhindrance : command.hindrance e = none)
    (hchange : ∀ entry, e.constraints.entries.get? c = some entry →
      (change entry.definition).handles.findSome? e.fault = handles.findSome? e.fault) :
    Performs (redefine c change) e (command.refusal e) () (e.restate c change) := by
  unfold redefine
  obtain ⟨err, hfault, hlookup⟩ | ⟨entry, hfault, hc, hlookup⟩ :=
    e.fault_constraint h.constraintsOwner c
  · have hrefusal : command.handles.findSome? e.fault = some err := by
      rw [hhandles, List.findSome?_cons, hfault]
    refine performs_error (Command.refusal_of_fault hrefusal) ?_
    exact bind_run_error (by rw [constraintEntry_run, hlookup])
  · have hrefusal : command.handles.findSome? e.fault
        = (change entry.definition).handles.findSome? e.fault := by
      rw [hhandles, List.findSome?_cons, hfault, hchange entry hc]
    refine performs_bind (by rw [constraintEntry_run, hlookup]) ?_
    unfold restate
    rw [hc]
    obtain ⟨howner, hindex, -⟩ := h.constraints c entry hc
    obtain ⟨hknown, hbuild⟩ | ⟨err, hunknown, hbuild⟩ := h.build_cases (change entry.definition)
    · have hproper : (Write.state c (change entry.definition) entry.enabled).Proper e :=
        ⟨Or.inr ⟨entry, hc, rfl⟩, h.handles_known.1 hknown⟩
      refine performs_ok ((Command.refusal_of_known (hrefusal.trans hknown)).trans hhindrance)
        ((bind_run_ok hbuild).trans ?_) (allProper_singleton hproper)
      have howner' : c.owner = e.constraints.owner := howner.trans h.constraintsOwner.symm
      let backing := (change entry.definition).backing (.caller e.labels)
      let e₀ : Engine α := { e with labels := e.labels + 1 }
      rw [carryOut_singleton, Write.record_state, Registry.enroll_known hindex]
      cases hon : entry.enabled with
      | true =>
        let e₂ := e₀.apply (exchange entry.backing backing)
        have hconstraints : e₂.constraints = e.constraints := apply_constraints _ _
        have hmodify := modifyEntry_run (e := e₂) (hconstraints ▸ howner') (hconstraints ▸ hc)
          fun k => { k with definition := change entry.definition, backing := backing }
        have happly := apply_withConstraints (exchange entry.backing backing) e₀
          (e.constraints.put c ⟨change entry.definition, true, backing⟩)
        rw [Write.change_state_known hc, happly, if_pos rfl, modify_bind_run]
        refine (bind_run_ok hmodify).trans ?_
        rw [hconstraints, hon]
        rfl
      | false =>
        have hmodify := modifyEntry_run (e := e₀) howner' hc
          fun k => { k with definition := change entry.definition, backing := backing }
        rw [Write.change_state_off, apply_pure, if_neg Bool.false_ne_true]
        refine (bind_run_ok hmodify).trans ?_
        rw [hon]
        rfl
    · exact performs_error (Command.refusal_of_fault (hrefusal.trans hunknown)) (bind_run_error hbuild)

theorem Registered.setEnabled_performs (h : e.Registered) (c : ConstraintId) (enabled : Bool) :
    Performs (setEnabled c enabled) e ((Command.setEnabled c enabled).refusal e) ()
      ((Command.setEnabled c enabled).writes e) := by
  unfold setEnabled
  obtain ⟨err, hfault, hlookup⟩ | ⟨entry, hfault, hc, hlookup⟩ :=
    e.fault_constraint h.constraintsOwner c
  · refine performs_error (Command.refusal_of_fault ((List.findSome?_singleton ..).trans hfault)) ?_
    exact bind_run_error (by rw [constraintEntry_run, hlookup])
  · have hrefusal : (Command.setEnabled c enabled).refusal e = none :=
      Command.refusal_of_known ((List.findSome?_singleton ..).trans hfault)
    have howner := (h.constraints c entry hc).1.trans h.constraintsOwner.symm
    refine performs_bind (by rw [constraintEntry_run, hlookup]) ?_
    unfold Command.writes
    dsimp only
    rw [hc]
    dsimp only
    split
    · exact performs_ok hrefusal rfl trivial
    · next hne =>
      refine performs_ok hrefusal ?_ (allProper_singleton ⟨entry, hc, hne⟩)
      refine (bind_run_ok (modifyEntry_run howner hc _)).trans ?_
      rw [carryOut_singleton, Write.record_switch hc, Write.change_switch hc]
      cases enabled <;> rfl

/-! ## Priorities of variables -/

/-- Giving an enabled constraint a new backing is stating it anew. -/
theorem Registered.refreshBacking_run (h : e.Registered) {entry : ConstraintEntry α}
    (hc : e.constraints.entries.get? c = some entry) :
    refreshBacking c e = .ok () (if entry.enabled then e.write (.state c entry.definition true) else e) := by
  obtain ⟨howner, hindex, -⟩ := h.constraints c entry hc
  have howner' : c.owner = e.constraints.owner := howner.trans h.constraintsOwner.symm
  have hentry : constraintEntry c e = .ok entry e := by
    rw [constraintEntry_run, Registry.lookup_of_get? howner' hc]
  unfold refreshBacking
  refine (bind_run_ok hentry).trans ?_
  cases hon : entry.enabled with
  | false => rfl
  | true =>
    rw [if_pos rfl, if_pos rfl]
    obtain ⟨-, hbuild⟩ | ⟨err, hunknown, -⟩ := h.build_cases entry.definition
    · refine (bind_run_ok hbuild).trans ?_
      let e₀ : Engine α := { e with labels := e.labels + 1 }
      refine (bind_run_ok (modifyEntry_run (e := e₀) howner' hc _)).trans ?_
      unfold Engine.write
      rw [Write.record_state, Registry.enroll_known hindex, Write.change_state_known hc, hon]
      rfl
    · rw [h.handles_known.2 fun y hy => h.mentioned c entry y hc hy] at hunknown
      cases hunknown

/-- Refreshing constraints one after the other states the enabled ones anew. -/
theorem Registered.refreshAll_run (h : e.Registered) (ks : List (ConstraintId × ConstraintEntry α))
    (hks : ∀ k ∈ ks, ∃ entry, e.constraints.entries.get? k.1 = some entry ∧
      entry.definition = k.2.definition ∧ entry.enabled = k.2.enabled) :
    let ws : List (Write α) := (ks.filter fun k => k.2.enabled).map fun k => .state k.1 k.2.definition true
    (ks.map Prod.fst).forM refreshBacking e = .ok () (e.writeAll ws) ∧ e.AllProper ws := by
  induction ks generalizing e with
  | nil => exact ⟨rfl, trivial⟩
  | cons k ks ih =>
    obtain ⟨entry, hc, hdefinition, henabled⟩ := hks k List.mem_cons_self
    have hrun := h.refreshBacking_run hc
    rw [henabled, hdefinition] at hrun
    rw [List.filter_cons]
    cases hon : k.2.enabled with
    | false =>
      rw [hon, if_neg Bool.false_ne_true] at hrun
      obtain ⟨hrest, hproper⟩ := ih h fun k' hk' => hks k' (List.mem_cons_of_mem _ hk')
      exact ⟨(bind_run_ok hrun).trans hrest, hproper⟩
    | true =>
      rw [hon, if_pos rfl] at hrun
      have hw : (Write.state k.1 k.2.definition true).Proper e := by
        refine ⟨Or.inr ⟨entry, hc, henabled.trans hon⟩, fun y hy => ?_⟩
        rw [← hdefinition] at hy
        exact h.mentioned k.1 entry y hc hy
      -- the new entry says what the old one said
      have hkept : ∀ k' ∈ ks, ∃ entry, (e.write (.state k.1 k.2.definition true)).constraints.entries.get?
          k'.1 = some entry ∧ entry.definition = k'.2.definition ∧ entry.enabled = k'.2.enabled := by
        intro k' hk'
        obtain ⟨entry', hc', hdefinition', henabled'⟩ := hks k' (List.mem_cons_of_mem _ hk')
        rw [write_constraints, Write.record_state]
        change ∃ entry, (e.constraints.put k.1 _).entries.get? k'.1 = some entry ∧ _
        rw [Registry.get?_put]
        by_cases hkk : k'.1 = k.1
        · rw [hkk, Function.update_self]
          rw [hkk, hc] at hc'
          obtain rfl := Option.some.inj hc'
          exact ⟨_, rfl, hdefinition.symm.trans hdefinition', hon.symm.trans (henabled.symm.trans henabled')⟩
        · rw [Function.update_of_ne hkk]
          exact ⟨entry', hc', hdefinition', henabled'⟩
      obtain ⟨hrest, hproper⟩ := ih (h.write hw) hkept
      exact ⟨(bind_run_ok hrun).trans hrest, hw, hproper⟩

theorem Registered.setVariablePriority_performs (h : e.Registered) (x : VariableId) (p : Priority) :
    Performs (setVariablePriority x p) e ((Command.setVariablePriority x p).refusal e) ()
      ((Command.setVariablePriority x p).writes e) := by
  unfold setVariablePriority
  obtain ⟨err, hfault, hlookup⟩ | ⟨entry, hfault, hx, hlookup⟩ := e.fault_var h.varsOwner x
  · refine performs_error (Command.refusal_of_fault ((List.findSome?_singleton ..).trans hfault)) ?_
    exact bind_run_error (by rw [variableEntry_run, hlookup])
  · have hrefusal : (Command.setVariablePriority x p).refusal e = none :=
      Command.refusal_of_known ((List.findSome?_singleton ..).trans hfault)
    obtain ⟨-, hindex, -⟩ := h.vars x entry hx
    refine performs_bind (by rw [variableEntry_run, hlookup]) ?_
    unfold Command.writes
    dsimp only
    rw [hx]
    dsimp only
    split
    · exact performs_ok hrefusal rfl trivial
    have hw : (Write.want x p entry.target).Proper e := Or.inr ⟨entry, hx⟩
    let moved : VariableEntry α := { entry with
      priority := p, pin := VariableEntry.pinFor (.caller e.labels) x p entry.target }
    have hwrite : ({ e with vars := e.vars.put x moved, labels := e.labels + 1 } : Engine α).apply
          (entry.leave x >>= fun _ => moved.enter x)
        = e.write (.want x p entry.target) := by
      unfold Engine.write
      rw [Write.record_want, Write.change_want_known hx, hx, Registry.enroll_known hindex]
      rfl
    split
    · have hsame : (e.write (.want x p entry.target)).restatements x = e.restatements x := by
        unfold restatements
        rw [write_constraints]
        rfl
      obtain ⟨hloop, hproper⟩ := (h.write hw).refreshAll_run
        ((e.write (.want x p entry.target)).constraints.entries.entries.filter fun k =>
          k.2.definition.mentions x)
        fun k hk => ⟨k.2, OrderedMap.mem_entries_iff.1 (List.mem_filter.1 hk).1, rfl, rfl⟩
      rw [List.filter_filter] at hloop hproper
      rw [← hsame]
      refine performs_ok hrefusal ?_ ⟨hw, hproper⟩
      have hrest := bind_run_ok (f := fun _ => modify Engine.markChanged) hloop
      change _ = EStateM.Result.ok () (writeAll (e.write (.want x p entry.target)) _).markChanged
      rw [← hwrite] at hrest ⊢
      exact hrest
    · refine performs_ok hrefusal ?_ (allProper_singleton hw)
      rw [carryOut_singleton]
      exact congrArg (fun e => EStateM.Result.ok () e.markChanged) hwrite

end Engine

end BoxLayout
