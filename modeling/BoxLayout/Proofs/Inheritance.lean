-- SUMMARY: Constraints stay switched on or off as they are, unless a call switches them.
import BoxLayout.Proofs.Commands
import BoxLayout.Proofs.Ensures

/-!
# Inheritance

An engine after a call has its constraints from the engine before, except for one that the call
has created. Whatever else becomes of a constraint, it stays enabled or disabled as it was: only
the call that is meant to do so switches it. This is what lets somebody else rely on the
switches without seeing every call.
-/

namespace BoxLayout

open Attempt

/-- The constraint that a write switches. -/
def Write.switches {α : Type} : Write α → Option ConstraintId
  | switch c _ => some c
  | _ => none

namespace Engine

/-- The constraint that a call switches. -/
def Command.switches {α : Type} : Command α → Option ConstraintId
  | setEnabled c _ => some c
  | _ => none

variable {α : Type} {e e' e'' : Engine α} {touched touched' : ConstraintId → Prop}

/-- What the second engine has registered under handles that the first one has issued, it has
from there, and switched as it was there if it is not touched. -/
structure Inherits (e e' : Engine α) (touched : ConstraintId → Prop) : Prop where
  id : e'.id = e.id
  next : e.constraints.next ≤ e'.constraints.next
  kept : ∀ c entry', c.index < e.constraints.next → e'.constraints.entries.get? c = some entry' →
    ∃ entry, e.constraints.entries.get? c = some entry ∧ (¬touched c → entry'.enabled = entry.enabled)

namespace Inherits

theorem of_constraints (hid : e'.id = e.id) (hconstraints : e'.constraints = e.constraints) :
    e.Inherits e' touched where
  id := hid
  next := Nat.le_of_eq (by rw [hconstraints])
  kept c entry' _ hc := ⟨entry', by rw [← hconstraints, hc], fun _ => rfl⟩

theorem refl (e : Engine α) : e.Inherits e touched := .of_constraints rfl rfl

theorem trans (h : e.Inherits e' touched) (h' : e'.Inherits e'' touched) : e.Inherits e'' touched where
  id := h'.id.trans h.id
  next := Nat.le_trans h.next h'.next
  kept c entry'' hindex hc := by
    obtain ⟨entry', hc', hsame'⟩ := h'.kept c entry'' (Nat.lt_of_lt_of_le hindex h.next) hc
    obtain ⟨entry, hc, hsame⟩ := h.kept c entry' hindex hc'
    exact ⟨entry, hc, fun hfree => (hsame' hfree).trans (hsame hfree)⟩

theorem mono (h : e.Inherits e' touched) (hle : ∀ c, touched c → touched' c) :
    e.Inherits e' touched' where
  id := h.id
  next := h.next
  kept c entry' hindex hc := by
    obtain ⟨entry, hc, hsame⟩ := h.kept c entry' hindex hc
    exact ⟨entry, hc, fun hfree => hsame fun htouched => hfree (hle c htouched)⟩

end Inherits

variable [Scalar α] {w : Write α} {ws : List (Write α)} {c : Command α}

/-! ## Writes -/

theorem Inherits.record (hw : w.Proper e) (htouched : ∀ c, w.switches = some c → touched c) :
    e.Inherits (w.record e) touched := by
  cases w with
  | want x p target => exact .of_constraints rfl rfl
  | move x target =>
    obtain ⟨entry, hx, -⟩ := hw
    rw [Write.record_move hx]
    exact .of_constraints rfl rfl
  | forget x => exact .of_constraints rfl rfl
  | state c d enabled =>
    refine ⟨rfl, Nat.le_max_left _ _, fun c' entry' hindex hc' => ?_⟩
    have hput := e.constraints.get?_put c ⟨d, enabled, d.backing (.caller e.labels)⟩
    have hget := (congrFun hput c').symm.trans hc'
    by_cases hsame : c' = c
    · subst hsame
      rw [Function.update_self] at hget
      obtain rfl := Option.some.inj hget
      rcases hw.1 with rfl | ⟨old, hc, hold⟩
      · exact absurd hindex (Nat.lt_irrefl _)
      · exact ⟨old, hc, fun _ => hold.symm⟩
    · rw [Function.update_of_ne hsame] at hget
      exact ⟨entry', hget, fun _ => rfl⟩
  | switch c enabled =>
    obtain ⟨old, hc, -⟩ := hw
    rw [Write.record_switch hc]
    refine ⟨rfl, Nat.le_refl _, fun c' entry' hindex hc' => ?_⟩
    have hput := e.constraints.get?_put c { old with enabled := enabled }
    have hget := (congrFun hput c').symm.trans hc'
    by_cases hsame : c' = c
    · subst hsame
      exact ⟨old, hc, fun hfree => absurd (htouched c' rfl) hfree⟩
    · rw [Function.update_of_ne hsame] at hget
      exact ⟨entry', hget, fun _ => rfl⟩
  | retract c =>
    refine ⟨rfl, Nat.le_refl _, fun c' entry' hindex hc' => ?_⟩
    have hget := (congrFun (e.constraints.get?_erase c) c').symm.trans hc'
    by_cases hsame : c' = c
    · subst hsame
      rw [Function.update_self] at hget
      cases hget
    · rw [Function.update_of_ne hsame] at hget
      exact ⟨entry', hget, fun _ => rfl⟩

theorem Inherits.write (hw : w.Proper e) (htouched : ∀ c, w.switches = some c → touched c) :
    e.Inherits (e.write w) touched :=
  (Inherits.record hw htouched).trans
    (.of_constraints ((write_id e w).trans rfl) (write_constraints e w))

theorem Inherits.writeAll (hws : e.AllProper ws)
    (htouched : ∀ w ∈ ws, ∀ c, w.switches = some c → touched c) :
    e.Inherits (e.writeAll ws) touched := by
  induction ws generalizing e with
  | nil => exact .refl e
  | cons w ws ih =>
    exact (Inherits.write hws.1 (htouched w List.mem_cons_self)).trans
      (ih hws.2 fun w hw => htouched w (List.mem_cons_of_mem _ hw))

theorem Inherits.refresh (e : Engine α) : e.Inherits e.refresh touched := by
  obtain ⟨hid, -, hconstraints, -⟩ := e.ensureLive_registries
  unfold Engine.refresh
  rcases e.ensureLive.readValues_cases with ⟨-, hread⟩ | ⟨s, -, -, hread⟩
  · rw [hread]
    exact .of_constraints hid hconstraints
  · rw [hread]
    exact .of_constraints hid hconstraints

/-! ## Calls -/

/-- A call has the constraint switched that it is about, and no other. -/
theorem Command.switches_of_mem_writes (hw : w ∈ c.writes e) {d : ConstraintId}
    (hd : w.switches = some d) : c.switches = some d := by
  obtain ⟨first, rest, hws⟩ := List.exists_cons_of_ne_nil (List.ne_nil_of_mem hw)
  have hfirst := writesFirst hws
  rw [hws] at hw
  rcases List.mem_cons.1 hw with rfl | hrest
  · cases hfirst with
    | switch => exact hd
    | _ => cases hd
  · obtain ⟨k, entry, -, rfl⟩ := hfirst.restates hrest
    cases hd

theorem Registered.perform_inherits (h : e.Registered) (c : Command α) :
    e.Inherits (c.perform e).2 fun d => c.switches = some d := by
  have hstep := h.step c
  generalize (c.perform e).2 = e' at hstep ⊢
  cases hstep with
  | stay => exact .refl e
  | carry _ hws hproper =>
    refine (Inherits.writeAll hproper fun w hw d hd => ?_).trans (.of_constraints rfl rfl)
    exact Command.switches_of_mem_writes (hws ▸ hw) hd
  | read => exact .refresh e
  | takeDirty | listen | stopListening => exact .of_constraints rfl rfl

/-! ## Attempts -/

section

variable {β γ : Type}

/-- However the attempt ends, the registries fit together and are inherited. -/
def Passes (m : Attempt EngineError (Engine α) β) (e : Engine α) (touched : ConstraintId → Prop) :
    Prop :=
  m.Ensures e (fun _ e' => e'.Registered ∧ e.Inherits e' touched)
    (fun _ e' => e'.Registered ∧ e.Inherits e' touched)

/-- What is done with an answer afterwards does not matter. -/
theorem Passes.of_bind_pure {m : Attempt EngineError (Engine α) β} {f : β → γ}
    (h : Passes (m >>= fun b => pure (f b)) e touched) : Passes m e touched := by
  unfold Passes Ensures at h ⊢
  rw [bind_run] at h
  cases hm : m e with
  | ok b e' => simpa [hm] using h
  | error err e' => simpa [hm] using h

end

theorem Registered.run_passes (h : e.Registered) (c : Command α) :
    Passes c.run e fun d => c.switches = some d := by
  have hafter : (c.perform e).2.Registered ∧
      e.Inherits (c.perform e).2 fun d => c.switches = some d :=
    ⟨h.after [c], h.perform_inherits c⟩
  unfold Passes Ensures
  unfold Command.perform at hafter
  cases hrun : c.run e with
  | ok r e' => simpa [hrun] using hafter
  | error err e' => simpa [hrun] using hafter

/-- A call that switches nothing, its answer aside. -/
theorem Registered.call_passes {β : Type} {m : Attempt EngineError (Engine α) β} {f : β → Reply α}
    (h : e.Registered) (c : Command α) (hrun : c.run = m >>= fun b => pure (f b))
    (hc : c.switches = none) : Passes m e fun _ => False := by
  have hpasses := h.run_passes c
  rw [hrun, hc] at hpasses
  refine hpasses.of_bind_pure.mono ?_ ?_ <;>
  · rintro - e' ⟨hregistered, hinherits⟩
    exact ⟨hregistered, hinherits.mono fun d hd => by cases hd⟩

theorem Registered.suggest_passes (h : e.Registered) (x : VariableId) (target : α) :
    Passes (suggest x target) e fun _ => False :=
  h.call_passes (.suggest x target) (f := fun _ => .done) rfl rfl

theorem Registered.read_passes (h : e.Registered) (x : VariableId) :
    Passes (read x) e fun _ => False :=
  h.call_passes (.read x) (f := .number) rfl rfl

theorem Registered.removeVariable_passes (h : e.Registered) (x : VariableId) :
    Passes (removeVariable x) e fun _ => False :=
  h.call_passes (.removeVariable x) (f := fun _ => .done) rfl rfl

theorem Registered.takeDirty_passes (h : e.Registered) :
    Passes (modifyGet Engine.takeDirty) e fun _ => False :=
  h.call_passes .takeDirty (f := .flag) rfl rfl

theorem Registered.createVariable_passes (h : e.Registered) (target : α) (p : Priority) :
    (createVariable target p e).2.Registered ∧
      e.Inherits (createVariable target p e).2 fun _ => False :=
  h.call_passes (m := modifyGet (createVariable target p)) (.createVariable target p)
    (f := .handle) rfl rfl

/-! ### Calls that create, remove or switch a constraint -/

/-- A constraint that is created is new, and enabled if it is meant to be. -/
theorem Registered.createConstraint_ensures (h : e.Registered) (d : Definition α) (enabled : Bool) :
    (createConstraint d enabled).Ensures e
      (fun c e' => (e'.Registered ∧ e.Inherits e' fun _ => False) ∧ c = e.constraints.issue.1 ∧
        e.constraints.next < e'.constraints.next ∧
        ∃ entry, e'.constraints.entries.get? c = some entry ∧ entry.enabled = enabled)
      (fun _ e' => e' = e) := by
  have hpasses : Passes (createConstraint d enabled) e fun _ => False :=
    h.call_passes (.createConstraint d enabled) (f := .handle) rfl rfl
  have hperforms := h.createConstraint_performs d enabled
  unfold Performs at hperforms
  unfold Passes Ensures at hpasses
  unfold Ensures
  cases hrefusal : (Command.createConstraint d enabled).refusal e with
  | some err =>
    rw [hrefusal] at hperforms
    rw [hperforms]
  | none =>
    rw [hrefusal] at hperforms
    rw [hperforms.1] at hpasses ⊢
    have hconstraints : (e.carryOut [.state e.constraints.issue.1 d enabled]).constraints
        = e.constraints.enroll e.constraints.issue.1 ⟨d, enabled, d.backing (.caller e.labels)⟩ :=
      write_constraints _ _
    refine ⟨hpasses, rfl, ?_, ⟨d, enabled, d.backing (.caller e.labels)⟩, ?_, rfl⟩
    · rw [hconstraints]
      exact Nat.lt_of_lt_of_le (Nat.lt_succ_self _) (Nat.le_max_right _ _)
    · rw [hconstraints]
      exact e.constraints.get?_put_self _ _

theorem Registered.get?_constraint_of_fault (h : e.Registered) {c : ConstraintId} {err : EngineError}
    (hfault : e.fault ⟨.constraint, c⟩ = some err) : e.constraints.entries.get? c = none := by
  rcases e.fault_constraint h.constraintsOwner c with ⟨err', -, hlookup⟩ | ⟨entry, hnone, -, -⟩
  · cases hc : e.constraints.entries.get? c with
    | none => rfl
    | some entry =>
      have howner := (h.constraints c entry hc).1.trans h.constraintsOwner.symm
      rw [Registry.lookup_of_get? howner hc] at hlookup
      cases hlookup
  · rw [hnone] at hfault
    cases hfault

/-- However it ends, a constraint that is removed is not registered after that. -/
theorem Registered.removeConstraint_ensures (h : e.Registered) (c : ConstraintId) :
    let Removed := fun e' : Engine α => (e'.Registered ∧ e.Inherits e' fun _ => False) ∧
      e'.constraints.entries.get? c = none
    (removeConstraint c).Ensures e (fun _ => Removed) (fun _ => Removed) := by
  intro Removed
  have hpasses : Passes (removeConstraint c) e fun _ => False :=
    h.call_passes (.removeConstraint c) (f := fun _ => .done) rfl rfl
  have hperforms := h.removeConstraint_performs c
  unfold Performs at hperforms
  unfold Passes Ensures at hpasses
  unfold Ensures
  cases hrefusal : (Command.removeConstraint c).refusal e with
  | some err =>
    rw [hrefusal] at hperforms
    rw [hperforms] at hpasses ⊢
    refine ⟨hpasses, ?_⟩
    cases hfault : e.fault ⟨.constraint, c⟩ with
    | some err => exact h.get?_constraint_of_fault hfault
    | none =>
      rw [Command.refusal_of_known ((List.findSome?_singleton ..).trans hfault)] at hrefusal
      cases hrefusal
  | none =>
    rw [hrefusal] at hperforms
    rw [hperforms.1] at hpasses ⊢
    refine ⟨hpasses, ?_⟩
    have hconstraints : (e.carryOut [.retract c]).constraints = e.constraints.strike c :=
      write_constraints _ _
    rw [hconstraints]
    exact (congrFun (e.constraints.get?_erase c) c).trans (Function.update_self _ _ _)

/-- A constraint of the engine is switched if it is still registered. Nothing else goes wrong. -/
theorem Registered.setEnabled_ensures (h : e.Registered) {c : ConstraintId} (howner : c.owner = e.id)
    (enabled : Bool) : (setEnabled c enabled).Ensures e
      (fun _ e' => (e'.Registered ∧ e.Inherits e' (· = c)) ∧
        (∀ d, e'.constraints.entries.get? d = none ↔ e.constraints.entries.get? d = none) ∧
        ∃ entry, e'.constraints.entries.get? c = some entry ∧ entry.enabled = enabled)
      (fun err e' => e' = e ∧ err = .unknown .constraint c ∧ e.constraints.entries.get? c = none) := by
  have hpasses : Passes (setEnabled c enabled) e (· = c) := by
    refine (h.run_passes (.setEnabled c enabled)).of_bind_pure.mono ?_ ?_ <;>
    · rintro - e' ⟨hregistered, hinherits⟩
      exact ⟨hregistered, hinherits.mono fun d hd => (Option.some.inj hd).symm⟩
  have hperforms := h.setEnabled_performs c enabled
  unfold Performs at hperforms
  unfold Passes Ensures at hpasses
  unfold Ensures
  cases hc : e.constraints.entries.get? c with
  | none =>
    have hrefusal : (Command.setEnabled c enabled).refusal e = some (.unknown .constraint c) := by
      apply Command.refusal_of_fault
      simp [Command.handles, fault, registers, OrderedMap.contains, howner, hc]
    rw [hrefusal] at hperforms
    rw [hperforms]
    exact ⟨rfl, rfl, rfl⟩
  | some entry =>
    have hrefusal : (Command.setEnabled c enabled).refusal e = none := by
      refine Command.refusal_of_known ((List.findSome?_singleton ..).trans ?_)
      simp [fault, registers, OrderedMap.contains, howner, hc]
    rw [hrefusal] at hperforms
    rw [hperforms.1] at hpasses ⊢
    refine ⟨hpasses, ?_⟩
    simp only [Command.writes, hc]
    by_cases hsame : entry.enabled = enabled
    · rw [if_pos hsame]
      exact ⟨fun d => .rfl, entry, hc, hsame⟩
    · have hconstraints : (e.carryOut [.switch c enabled]).constraints
          = e.constraints.put c { entry with enabled := enabled } := by
        refine (write_constraints e (.switch c enabled)).trans ?_
        rw [Write.record_switch hc]
      rw [if_neg hsame, hconstraints, Registry.get?_put]
      refine ⟨fun d => ?_, { entry with enabled := enabled }, Function.update_self _ _ _, rfl⟩
      by_cases hd : d = c
      · subst hd
        rw [Function.update_self, hc]
        simp
      · rw [Function.update_of_ne hd]

end Engine

end BoxLayout
