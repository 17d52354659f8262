-- SUMMARY: The registries stay the source of truth: ordered handles, one backing each, and pins and constraints as they would be built anew.
import BoxLayout.Proofs.Refusals
import BoxLayout.Scalar.Exact
import Mathlib.Data.List.Nodup

/-!
# Bookkeeping

A solver is dropped and built again from the registries, which are trusted blindly then. So
they have to say at any time, with or without a solver, what an engine is to solve: which
variables there are, how each of them is wanted, and which constraints are stated about them.

Handles count up. A call that issues one takes the next index, and no call takes an index
back.
-/

namespace BoxLayout.Engine

variable {α : Type} [Scalar α] {e : Engine α} {c : Command α}

/-! ## Handles count up -/

section

variable {α : Type}

/-- The index of the next handle of a kind. -/
def nextIndex (e : Engine α) : HandleKind → Nat
  | .var => e.vars.next
  | .constraint => e.constraints.next

/-- The handle that an answer issues. -/
def issuedHandle : Except EngineError (Reply α) → Option AnyHandle
  | .ok (.handle h) => some ⟨_, h⟩
  | _ => none

/-- The handles that answers issue, in order. -/
def issuedHandles (answers : List (Except EngineError (Reply α))) : List AnyHandle :=
  answers.filterMap issuedHandle

end

theorem nextIndex_record (w : Write α) (e : Engine α) (kind : HandleKind) :
    e.nextIndex kind ≤ (w.record e).nextIndex kind := by
  cases w with
  | want x p target =>
    cases kind with
    | var => exact Nat.le_max_left _ _
    | constraint => exact Nat.le_refl _
  | move x target =>
    simp only [Write.record]
    split <;> cases kind <;> exact Nat.le_refl _
  | forget x => cases kind <;> exact Nat.le_refl _
  | state c d enabled =>
    cases kind with
    | var => exact Nat.le_refl _
    | constraint => exact Nat.le_max_left _ _
  | switch c enabled =>
    simp only [Write.record]
    split <;> cases kind <;> exact Nat.le_refl _
  | retract c => cases kind <;> exact Nat.le_refl _

theorem nextIndex_write (w : Write α) (e : Engine α) (kind : HandleKind) :
    (e.write w).nextIndex kind = (w.record e).nextIndex kind := by
  cases kind <;> simp [nextIndex]

theorem nextIndex_refresh (e : Engine α) (kind : HandleKind) :
    e.refresh.nextIndex kind = e.nextIndex kind := by
  obtain ⟨-, hvars, hconstraints, -⟩ := e.ensureLive_registries
  unfold Engine.refresh
  rcases e.ensureLive.readValues_cases with ⟨-, hread⟩ | ⟨s, -, -, hread⟩ <;> rw [hread] <;>
    cases kind <;> simp [nextIndex, Registry.mapEntries, hvars, hconstraints]

theorem nextIndex_kept (n : Nat) (kind : HandleKind) :
    Kept fun e : Engine α => n ≤ e.nextIndex kind where
  write e w _ h _ := by
    rw [nextIndex_write]
    exact Nat.le_trans h (nextIndex_record w e kind)
  markChanged _ h := by cases kind <;> exact h
  refresh e _ h := by
    rw [nextIndex_refresh]
    exact h
  note _ _ _ h := by cases kind <;> exact h

theorem Registered.nextIndex_perform (h : e.Registered) (c : Command α) (kind : HandleKind) :
    e.nextIndex kind ≤ (c.perform e).2.nextIndex kind :=
  ((nextIndex_kept _ kind).perform h (Nat.le_refl _) c).2

/-- A handle that is issued takes the next index. -/
theorem Registered.issuedHandle_perform (h : e.Registered) {g : AnyHandle}
    (hg : issuedHandle (c.perform e).1 = some g) :
    g.2.index = e.nextIndex g.1 ∧ e.nextIndex g.1 < (c.perform e).2.nextIndex g.1 := by
  rcases h.perform_cases c with ⟨err, -, hperform⟩ | ⟨-, hperform, -⟩
  · rw [hperform] at hg
    cases hg
  rw [hperform] at hg ⊢
  cases c with
  | createVariable target p =>
    cases hg
    refine ⟨rfl, ?_⟩
    change e.vars.next < (e.write (.want e.vars.issue.1 p target)).vars.next
    rw [write_vars]
    exact Nat.le_max_right _ _
  | createConstraint d enabled =>
    cases hg
    refine ⟨rfl, ?_⟩
    change e.constraints.next < (e.write (.state e.constraints.issue.1 d enabled)).constraints.next
    rw [write_constraints]
    exact Nat.le_max_right _ _
  | priorityOf x =>
    simp only [Command.reply] at hg
    cases hx : e.vars.entries.get? x <;> simp [hx, issuedHandle] at hg
  | targetOf x =>
    simp only [Command.reply] at hg
    cases hx : e.vars.entries.get? x <;> simp [hx, issuedHandle] at hg
  | definitionOf c =>
    simp only [Command.reply] at hg
    cases hc : e.constraints.entries.get? c <;> simp [hc, issuedHandle] at hg
  | _ => cases hg

/-- What is issued from now on has an index from the next one on. -/
theorem Registered.nextIndex_le_issued (h : e.Registered) {history : List (Command α)} {g : AnyHandle}
    (hg : g ∈ issuedHandles (e.answers history)) : e.nextIndex g.1 ≤ g.2.index := by
  induction history generalizing e with
  | nil => cases hg
  | cons c history ih =>
    obtain ⟨answer, hanswer, hissued⟩ := List.mem_filterMap.1 hg
    rcases List.mem_cons.1 hanswer with rfl | hanswer
    · exact Nat.le_of_eq (h.issuedHandle_perform hissued).1.symm
    · refine Nat.le_trans (h.nextIndex_perform c g.1) (ih (h.after [c]) ?_)
      exact List.mem_filterMap.2 ⟨answer, hanswer, hissued⟩

theorem Registered.nodup_issued (h : e.Registered) (history : List (Command α)) :
    (issuedHandles (e.answers history)).Nodup := by
  induction history generalizing e with
  | nil => exact List.nodup_nil
  | cons c history ih =>
    have hrest := ih (h.after [c])
    unfold issuedHandles at hrest ⊢
    rw [answers, List.filterMap_cons]
    cases hissued : issuedHandle (c.perform e).1 with
    | none => exact hrest
    | some g =>
      refine List.nodup_cons.2 ⟨fun hmem => ?_, hrest⟩
      obtain ⟨hindex, hlt⟩ := h.issuedHandle_perform hissued
      have hle := (h.after [c]).nextIndex_le_issued hmem
      rw [hindex] at hle
      exact Nat.lt_irrefl _ (Nat.lt_of_lt_of_le hlt hle)

/-! ## Variables are kept in the order of issue -/

theorem ascending_record (hreg : e.Registered) (h : e.vars.Ascending) {w : Write α}
    (hw : w.Proper e) : (w.record e).vars.Ascending := by
  cases w with
  | want x p target =>
    rcases hw with rfl | ⟨old, hx⟩
    · exact h.enroll_issued fun x entry hx => (hreg.vars x entry hx).2.1
    · rw [Write.record_want, Registry.enroll_known (hreg.vars x old hx).2.1]
      exact h.put hx
  | move x target =>
    obtain ⟨old, hx, -⟩ := hw
    rw [Write.record_move hx]
    exact h.put hx
  | forget x => exact h.strike
  | state c d enabled => exact h
  | switch c enabled =>
    obtain ⟨old, hc, -⟩ := hw
    rw [Write.record_switch hc]
    exact h
  | retract c => exact h

theorem handles_refresh (e : Engine α) : e.refresh.vars.handles = e.vars.handles := by
  have hvars := e.ensureLive_registries.2.1
  unfold Engine.refresh
  rcases e.ensureLive.readValues_cases with ⟨-, hread⟩ | ⟨s, -, -, hread⟩
  · rw [hread, hvars]
  · rw [hread]
    simp only [Registry.handles, Registry.mapEntries, OrderedMap.keys_mapValues, hvars]

theorem ascending_kept : Kept fun e : Engine α => e.vars.Ascending where
  write e w hreg h hw := by
    rw [write_vars]
    exact ascending_record hreg h hw
  markChanged _ h := h
  refresh e _ h := by
    unfold Registry.Ascending
    rw [handles_refresh]
    exact h
  note _ _ _ h := h

/-! ## What the registries say -/

/-- The registries say by themselves what the engine is to solve. -/
structure Truthful (e : Engine α) : Prop where
  varsAscending : e.vars.handles.Pairwise fun x y => x.index < y.index
  varsIssued : ∀ x ∈ e.vars.handles, x.owner = e.id ∧ x.index < e.vars.next
  constraintsAscending : e.constraints.handles.Pairwise fun c d => c.index < d.index
  constraintsIssued : ∀ c ∈ e.constraints.handles, c.owner = e.id ∧ c.index < e.constraints.next
  /-- No two variables share the solver variable behind them. -/
  backings : (e.vars.handles.map Handle.backing).Nodup
  pinned : ∀ x entry, e.vars.entries.get? x = some entry →
    (entry.pin.isSome = true ↔ entry.priority = .p0)
  /-- A pin holds the variable at its target, and is required. -/
  pins : ∀ x entry pin, e.vars.entries.get? x = some entry → entry.pin = some pin →
    ∃ label, pin = .pin label x.backing entry.target
  mentioned : ∀ c entry x, e.constraints.entries.get? c = some entry →
    entry.definition.mentions x = true → x ∈ e.vars.handles
  /-- A constraint, be it enabled or not, has the backing that would be built from its
  definition now, up to the label. -/
  built : ∀ c entry, e.constraints.entries.get? c = some entry →
    ∃ k e', build entry.definition e = .ok k e' ∧
      entry.backing = { k with label := entry.backing.label }

theorem Registered.nodup_backing (h : e.Registered) : (e.vars.handles.map Handle.backing).Nodup := by
  refine List.Nodup.map_on (fun x hx y hy hback => ?_) e.vars.entries.nodup_keys
  obtain ⟨entry, hx⟩ := OrderedMap.mem_keys_iff.1 hx
  obtain ⟨entry', hy⟩ := OrderedMap.mem_keys_iff.1 hy
  exact h.backing_injective hx hy hback

theorem Registered.pin_isSome_iff (h : e.Registered) {x : VariableId} {entry : VariableEntry α}
    (hx : e.vars.entries.get? x = some entry) : entry.pin.isSome = true ↔ entry.priority = .p0 := by
  have hfits := (h.vars x entry hx).2.2
  rw [← Priority.isRequired_iff]
  cases hpin : entry.pin with
  | some pin => simp [(hfits.pin_eq_some hpin).1]
  | none => simp [hfits.pin_eq_none hpin]

/-- Building a registered definition succeeds, and says what the stored backing says. -/
theorem Registered.build_registered (h : e.Registered) {c : ConstraintId} {entry : ConstraintEntry α}
    (hc : e.constraints.entries.get? c = some entry) : ∃ k e', build entry.definition e = .ok k e' ∧
      entry.backing = { k with label := entry.backing.label } := by
  obtain ⟨n, -, hbacking⟩ := (h.constraints c entry hc).2.2
  rcases h.build_cases entry.definition with ⟨-, hbuild⟩ | ⟨err, hunknown, -⟩
  · exact ⟨_, _, hbuild, by rw [hbacking]; rfl⟩
  · rw [h.handles_known.2 fun y hy => h.mentioned c entry y hc hy] at hunknown
    cases hunknown

theorem Registered.truthful (h : e.Registered) (hvars : e.vars.Ascending)
    (hconstraints : e.constraints.Ascending) : e.Truthful where
  varsAscending := hvars
  varsIssued x hx := by
    obtain ⟨entry, hx⟩ := OrderedMap.mem_keys_iff.1 hx
    exact ⟨(h.vars x entry hx).1, (h.vars x entry hx).2.1⟩
  constraintsAscending := hconstraints
  constraintsIssued c hc := by
    obtain ⟨entry, hc⟩ := OrderedMap.mem_keys_iff.1 hc
    exact ⟨(h.constraints c entry hc).1, (h.constraints c entry hc).2.1⟩
  backings := h.nodup_backing
  pinned x entry hx := h.pin_isSome_iff hx
  pins x entry pin hx hpin := by
    obtain ⟨-, n, -, rfl⟩ := (h.vars x entry hx).2.2.pin_eq_some hpin
    exact ⟨_, rfl⟩
  mentioned c entry x hc hmentions := OrderedMap.mem_keys_iff.2 (h.mentioned c entry x hc hmentions)
  built c entry hc := h.build_registered hc

/-- Every history, whatever becomes of the solver, leaves registries that say by themselves
what the engine is to solve, and no handle is issued twice on the way. -/
theorem registries_truthful (id : EngineId) (options : EngineOptions) (history : List (Command α)) :
    let e₀ : Engine α := .create id options
    (e₀.after history).Truthful ∧ (issuedHandles (e₀.answers history)).Nodup := by
  intro e₀
  have hreg : e₀.Registered := .create id options
  have hvars := (ascending_kept.after hreg List.Pairwise.nil history).2
  have hconstraints := (inOrder_kept.after hreg List.Pairwise.nil history).2
  exact ⟨(hreg.after history).truthful hvars hconstraints, hreg.nodup_issued history⟩

/-- A variable that loses its pin and gets another, and a constraint that is edited while it
is disabled. -/
example :
    let x : VariableId := ⟨⟨0⟩, 0⟩
    let c : ConstraintId := ⟨⟨0⟩, 0⟩
    let e : Engine Rat := (Engine.create ⟨0⟩ .default).after
      [.createVariable 3 .p0, .createConstraint ⟨.ofUnknown x, .equal, .ofConstant 4, .p1⟩ false,
        .setVariablePriority x .p2, .setRhs c (.ofConstant 5), .setVariablePriority x .p0]
    e.vars.entries.values.map (fun entry => entry.pin.map fun pin => pin.expression.constant)
        = [some (-3)] ∧
      e.constraints.entries.values.map (fun entry => entry.backing.expression.constant) = [-5] := by
  decide +kernel

end BoxLayout.Engine
