-- SUMMARY: What the registries ask of a solver, and how each call brings a solver in line with it.
import BoxLayout.Engine.Registry
import BoxLayout.Proofs.Ledger
import Mathlib.Logic.Function.Basic

/-!
# Demands on a solver

Seen from the solver, the registries ask for constraints and for edit variables. A
constraint has an owner, the variable that it pins or the registered constraint that it
states, and each edit variable is wished at a target with some priority. A solver mirrors
a demand if it holds what is asked for, each thing once, and nothing else.

There is one lemma for each way in which a demand changes. It says which call of the
solver goes along with the change, and that this call is not denied.
-/

namespace BoxLayout

/-- What a constraint in the solver belongs to. -/
inductive Owner where
  | var (x : VariableId)
  | constraint (c : ConstraintId)
  deriving DecidableEq

/-- How the value of an edit variable is wanted. -/
structure Wish (α : Type) where
  priority : Priority
  target : α

/-- What a solver is asked for. -/
structure Demand (α : Type) where
  constraints : Owner → Option (Constraint α)
  wishes : VariableId → Option (Wish α)

/-- No strength of a preference is required. -/
def Strength.Graded (α : Type) [Scalar α] : Prop :=
  ∀ p : Priority, p.isRequired = false → (Strength.ofPriority p : Strength α).clip.isRequired = false

namespace Demand

variable {α : Type} {d d' : Demand α}

def empty : Demand α := ⟨fun _ => none, fun _ => none⟩

def withConstraint (d : Demand α) (o : Owner) (c : Option (Constraint α)) : Demand α :=
  { d with constraints := Function.update d.constraints o c }

def withWish (d : Demand α) (x : VariableId) (w : Option (Wish α)) : Demand α :=
  { d with wishes := Function.update d.wishes x w }

@[simp] theorem constraints_withConstraint (d : Demand α) (o : Owner) (c : Option (Constraint α)) :
    (d.withConstraint o c).constraints = Function.update d.constraints o c := rfl

@[simp] theorem wishes_withConstraint (d : Demand α) (o : Owner) (c : Option (Constraint α)) :
    (d.withConstraint o c).wishes = d.wishes := rfl

@[simp] theorem constraints_withWish (d : Demand α) (x : VariableId) (w : Option (Wish α)) :
    (d.withWish x w).constraints = d.constraints := rfl

@[simp] theorem wishes_withWish (d : Demand α) (x : VariableId) (w : Option (Wish α)) :
    (d.withWish x w).wishes = Function.update d.wishes x w := rfl

/-- Asking for what is asked for already changes nothing. -/
theorem withConstraint_eq_self {o : Owner} {c : Option (Constraint α)} (h : d.constraints o = c) :
    d.withConstraint o c = d := by
  unfold withConstraint
  rw [← h, Function.update_eq_self]

theorem withWish_eq_self {x : VariableId} {w : Option (Wish α)} (h : d.wishes x = w) :
    d.withWish x w = d := by
  unfold withWish
  rw [← h, Function.update_eq_self]

/-- Another target for one variable leaves all variables wished for as strongly as before. -/
theorem wishes_retarget {x y : VariableId} {w v : Wish α} {target : α}
    (hv : (d.withWish x (some { w with target := target })).wishes y = some v) :
    ∃ v', (d.withWish x (some w)).wishes y = some v' ∧ v'.priority = v.priority := by
  rw [wishes_withWish] at hv ⊢
  by_cases hyx : y = x
  · subst hyx
    rw [Function.update_self] at hv
    cases hv
    exact ⟨w, Function.update_self .., rfl⟩
  · rw [Function.update_of_ne hyx] at hv
    exact ⟨v, (Function.update_of_ne hyx ..).trans hv, rfl⟩

variable [Scalar α]

/-- The demand can be met: labels and edit variables tell apart what is asked for. -/
structure Fit (d : Demand α) : Prop where
  caller : ∀ o c, d.constraints o = some c → ∃ n, c.label = .caller n
  made : ∀ o c, d.constraints o = some c → c.Made
  apart : ∀ o o' c c', d.constraints o = some c → d.constraints o' = some c' → c.label = c'.label →
    o = o'
  preferred : ∀ x w, d.wishes x = some w → w.priority.isRequired = false
  backings : ∀ x x' w w', d.wishes x = some w → d.wishes x' = some w' → x.backing = x'.backing →
    x = x'

/-- Asking for less, or for other targets, can be met as well. -/
theorem Fit.mono (h : d.Fit)
    (hconstraints : ∀ o c, d'.constraints o = some c → d.constraints o = some c)
    (hwishes : ∀ x w, d'.wishes x = some w →
      ∃ w', d.wishes x = some w' ∧ w'.priority = w.priority) : d'.Fit := by
  refine ⟨?_, ?_, ?_, ?_, ?_⟩
  · intro o c hc
    exact h.caller o c (hconstraints o c hc)
  · intro o c hc
    exact h.made o c (hconstraints o c hc)
  · intro o o' c c' hc hc'
    exact h.apart o o' c c' (hconstraints o c hc) (hconstraints o' c' hc')
  · intro x w hw
    obtain ⟨w', hw', hp⟩ := hwishes x w hw
    rw [← hp]
    exact h.preferred x w' hw'
  · intro x x' w w' hw hw'
    obtain ⟨v, hv, -⟩ := hwishes x w hw
    obtain ⟨v', hv', -⟩ := hwishes x' w' hw'
    exact h.backings x x' v v' hv hv'

end Demand

open Attempt Solver

/-! ## Held constraints -/

section

variable {α : Type} {s s' : Solver α} {asked : Owner → Option (Constraint α)} {o : Owner}
  {c : Constraint α} {tag : Tag}

/-- Every constraint stands under its own label. -/
def Solver.Labelled (s : Solver α) : Prop :=
  ∀ label a, s.constraints.get? label = some a → a.constraint.label = label

/-- The solver holds the constraints asked for, and no others with a caller's label. -/
structure Solver.Holds (s : Solver α) (asked : Owner → Option (Constraint α)) : Prop where
  held : ∀ o c, asked o = some c → ∃ tag, s.constraints.get? c.label = some ⟨c, tag⟩
  asked : ∀ n a, s.constraints.get? (.caller n) = some a → ∃ o, asked o = some a.constraint

theorem Solver.Labelled.of_insert (h : s.Labelled) {inserted : Label}
    (hget : ∀ label, s'.constraints.get? label
      = if label = inserted then some ⟨c, tag⟩ else s.constraints.get? label)
    (hc : c.label = inserted) : s'.Labelled := by
  intro label a ha
  rw [hget] at ha
  split at ha
  · next heq =>
    cases ha
    exact hc.trans heq.symm
  · exact h label a ha

theorem Solver.Labelled.of_erase (h : s.Labelled) {erased : Label}
    (hget : ∀ label, s'.constraints.get? label
      = if label = erased then none else s.constraints.get? label) : s'.Labelled := by
  intro label a ha
  rw [hget] at ha
  split at ha
  · cases ha
  · exact h label a ha

/-- Only callers' labels matter to what is held. -/
theorem Solver.Holds.congr (h : s.Holds asked)
    (hcaller : ∀ o c, asked o = some c → ∃ n, c.label = .caller n)
    (hget : ∀ n, s'.constraints.get? (.caller n) = s.constraints.get? (.caller n)) :
    s'.Holds asked := by
  refine ⟨fun o c hc => ?_, fun n a ha => ?_⟩
  · obtain ⟨n, hn⟩ := hcaller o c hc
    obtain ⟨tag, hheld⟩ := h.held o c hc
    exact ⟨tag, by rw [hn, hget, ← hn, hheld]⟩
  · rw [hget] at ha
    exact h.asked n a ha

theorem Solver.Holds.of_insert (h : s.Holds asked) (ho : asked o = none)
    (hvacant : s.constraints.get? c.label = none) (hget : ∀ label, s'.constraints.get? label
      = if label = c.label then some ⟨c, tag⟩ else s.constraints.get? label) :
    s'.Holds (Function.update asked o (some c)) := by
  constructor
  · intro o' c' hc'
    by_cases hoo : o' = o
    · subst hoo
      rw [Function.update_self] at hc'
      cases hc'
      exact ⟨tag, by rw [hget, if_pos rfl]⟩
    · rw [Function.update_of_ne hoo] at hc'
      obtain ⟨tag', hheld⟩ := h.held o' c' hc'
      refine ⟨tag', ?_⟩
      rw [hget, if_neg, hheld]
      intro heq
      rw [heq, hvacant] at hheld
      cases hheld
  · intro n a ha
    rw [hget] at ha
    split at ha
    · cases ha
      exact ⟨o, Function.update_self ..⟩
    · obtain ⟨o', ho'⟩ := h.asked n a ha
      have hne : o' ≠ o := by
        rintro rfl
        rw [ho] at ho'
        cases ho'
      exact ⟨o', (Function.update_of_ne hne ..).trans ho'⟩

theorem Solver.Holds.of_erase (h : s.Holds asked) (hlabelled : s.Labelled) (ho : asked o = some c)
    (hapart : ∀ o' c', asked o' = some c' → c'.label = c.label → o' = o)
    (hget : ∀ label, s'.constraints.get? label
      = if label = c.label then none else s.constraints.get? label) :
    s'.Holds (Function.update asked o none) := by
  constructor
  · intro o' c' hc'
    by_cases hoo : o' = o
    · rw [hoo, Function.update_self] at hc'
      cases hc'
    · rw [Function.update_of_ne hoo] at hc'
      obtain ⟨tag, hheld⟩ := h.held o' c' hc'
      refine ⟨tag, ?_⟩
      rw [hget, if_neg, hheld]
      exact fun heq => hoo (hapart o' c' hc' heq)
  · intro n a ha
    rw [hget] at ha
    split at ha
    · cases ha
    · next hne =>
      obtain ⟨o', ho'⟩ := h.asked n a ha
      refine ⟨o', ?_⟩
      rw [Function.update_of_ne, ho']
      rintro rfl
      rw [ho] at ho'
      have heq : c = a.constraint := Option.some.inj ho'
      exact hne ((hlabelled _ a ha).symm.trans (congrArg Constraint.label heq.symm))

end

variable {α : Type} [Scalar α] {d : Demand α} {s s' : Solver α} {o : Owner} {c : Constraint α}
  {x : VariableId} {w : Wish α} {wishes : VariableId → Option (Wish α)} {tag : Tag} {n : Nat}

/-! ## Edit variables -/

/-- The solver has the edit variables wished for, at their targets, and no others. -/
structure Solver.Tends (s : Solver α) (wishes : VariableId → Option (Wish α)) : Prop where
  edited : ∀ x w, wishes x = some w → ∃ n tag, n < s.editCount ∧
    s.edits.get? x.backing
      = some ⟨tag, .forEdit n x.backing (.ofPriority w.priority), w.target⟩ ∧
    s.constraints.get? (.edit n) = some ⟨.forEdit n x.backing (.ofPriority w.priority), tag⟩
  wished : ∀ z f, s.edits.get? z = some f → ∃ x w, wishes x = some w ∧ x.backing = z
  backed : ∀ n a, s.constraints.get? (.edit n) = some a → ∃ x w f, wishes x = some w ∧
    s.edits.get? x.backing = some f ∧ f.constraint = a.constraint

/-- Only the solver's own labels matter to the edit variables. -/
theorem Solver.Tends.congr (h : s.Tends wishes) (hedits : s'.edits = s.edits)
    (hcount : s'.editCount = s.editCount)
    (hget : ∀ n, s'.constraints.get? (.edit n) = s.constraints.get? (.edit n)) :
    s'.Tends wishes := by
  refine ⟨fun x w hw => ?_, fun z f hf => ?_, fun n a ha => ?_⟩
  · obtain ⟨n, tag, hn, hf, ha⟩ := h.edited x w hw
    exact ⟨n, tag, hcount ▸ hn, by rw [hedits, hf], by rw [hget, ha]⟩
  · rw [hedits] at hf
    exact h.wished z f hf
  · rw [hget] at ha
    rw [hedits]
    exact h.backed n a ha

/-- An edit variable comes in, under the next label. -/
theorem Solver.Tends.of_insert (h : s.Tends wishes) (hx : wishes x = none)
    (hapart : ∀ y v, wishes y = some v → y.backing ≠ x.backing)
    (hget : ∀ label, s'.constraints.get? label = if label = .edit s.editCount then
      some ⟨.forEdit s.editCount x.backing (.ofPriority w.priority), tag⟩
      else s.constraints.get? label)
    (hedit : ∀ z, s'.edits.get? z = if z = x.backing then
      some ⟨tag, .forEdit s.editCount x.backing (.ofPriority w.priority), w.target⟩
      else s.edits.get? z)
    (hcount : s'.editCount = s.editCount + 1) : s'.Tends (Function.update wishes x (some w)) := by
  have hother {y : VariableId} {v : Wish α} (hv : wishes y = some v) : y ≠ x := by
    rintro rfl
    rw [hx] at hv
    cases hv
  refine ⟨fun y v hv => ?_, fun z f hf => ?_, fun n a ha => ?_⟩
  · rw [hcount]
    by_cases hyx : y = x
    · subst hyx
      rw [Function.update_self] at hv
      cases hv
      exact ⟨s.editCount, tag, Nat.lt_succ_self _, by rw [hedit, if_pos rfl],
        by rw [hget, if_pos rfl]⟩
    · rw [Function.update_of_ne hyx] at hv
      obtain ⟨m, tag', hm, hf, ha⟩ := h.edited y v hv
      refine ⟨m, tag', Nat.lt_succ_of_lt hm, by rw [hedit, if_neg (hapart y v hv), hf], ?_⟩
      rw [hget, if_neg, ha]
      intro heq
      rw [Label.edit.inj heq] at hm
      exact Nat.lt_irrefl _ hm
  · rw [hedit] at hf
    split at hf
    · next hz => exact ⟨x, w, Function.update_self .., hz.symm⟩
    · obtain ⟨y, v, hv, hback⟩ := h.wished z f hf
      exact ⟨y, v, (Function.update_of_ne (hother hv) ..).trans hv, hback⟩
  · rw [hget] at ha
    split at ha
    · cases ha
      exact ⟨x, w, _, Function.update_self .., by rw [hedit, if_pos rfl], rfl⟩
    · obtain ⟨y, v, f, hv, hf, hfa⟩ := h.backed n a ha
      refine ⟨y, v, f, (Function.update_of_ne (hother hv) ..).trans hv, ?_, hfa⟩
      rw [hedit, if_neg (hapart y v hv), hf]

/-- An edit variable gets another target. -/
theorem Solver.Tends.of_retarget (h : s.Tends wishes) (hx : wishes x = some w)
    (hapart : ∀ y v, wishes y = some v → y.backing = x.backing → y = x)
    (hedited : s.edits.get? x.backing
      = some ⟨tag, .forEdit n x.backing (.ofPriority w.priority), w.target⟩) {target : α}
    (hconstraints : s'.constraints = s.constraints) (hcount : s'.editCount = s.editCount)
    (hedit : ∀ z, s'.edits.get? z = if z = x.backing then
      some ⟨tag, .forEdit n x.backing (.ofPriority w.priority), target⟩ else s.edits.get? z) :
    s'.Tends (Function.update wishes x (some { w with target := target })) := by
  refine ⟨fun y v hv => ?_, fun z f hf => ?_, fun m a ha => ?_⟩
  · rw [hconstraints, hcount]
    by_cases hyx : y = x
    · subst hyx
      rw [Function.update_self] at hv
      cases hv
      obtain ⟨m, tag', hm, hf, ha⟩ := h.edited y w hx
      rw [hedited] at hf
      cases hf
      exact ⟨n, tag, hm, by rw [hedit, if_pos rfl], ha⟩
    · rw [Function.update_of_ne hyx] at hv
      obtain ⟨m, tag', hm, hf, ha⟩ := h.edited y v hv
      exact ⟨m, tag', hm, by rw [hedit, if_neg fun heq => hyx (hapart y v hv heq), hf], ha⟩
  · rw [hedit] at hf
    split at hf
    · next hz => exact ⟨x, _, Function.update_self .., hz.symm⟩
    · next hne =>
      obtain ⟨y, v, hv, hback⟩ := h.wished z f hf
      refine ⟨y, v, (Function.update_of_ne ?_ ..).trans hv, hback⟩
      rintro rfl
      exact hne hback.symm
  · rw [hconstraints] at ha
    obtain ⟨y, v, f, hv, hf, hfa⟩ := h.backed m a ha
    by_cases hyx : y = x
    · subst hyx
      rw [hedited] at hf
      cases hf
      refine ⟨y, { w with target := target },
        ⟨tag, .forEdit n y.backing (.ofPriority w.priority), target⟩, Function.update_self .., ?_, hfa⟩
      rw [hedit, if_pos rfl]
    · refine ⟨y, v, f, (Function.update_of_ne hyx ..).trans hv, ?_, hfa⟩
      rw [hedit, if_neg fun heq => hyx (hapart y v hv heq), hf]

/-- An edit variable goes out. -/
theorem Solver.Tends.of_erase (h : s.Tends wishes) (hlabelled : s.Labelled)
    (hapart : ∀ y v, wishes y = some v → y.backing = x.backing → y = x)
    {k : Constraint α} {target : α} (hedited : s.edits.get? x.backing = some ⟨tag, k, target⟩)
    (hactive : s.constraints.get? (.edit n) = some ⟨k, tag⟩)
    (hk : ∃ strength, k = .forEdit n x.backing strength)
    (hget : ∀ label, s'.constraints.get? label
      = if label = .edit n then none else s.constraints.get? label)
    (hedit : ∀ z, s'.edits.get? z = if z = x.backing then none else s.edits.get? z)
    (hcount : s'.editCount = s.editCount) : s'.Tends (Function.update wishes x none) := by
  obtain ⟨strength, rfl⟩ := hk
  refine ⟨fun y v hv => ?_, fun z f hf => ?_, fun m a ha => ?_⟩
  · have hyx : y ≠ x := by
      rintro rfl
      rw [Function.update_self] at hv
      cases hv
    rw [Function.update_of_ne hyx] at hv
    have hback : y.backing ≠ x.backing := fun heq => hyx (hapart y v hv heq)
    obtain ⟨m, tag', hm, hf, ha⟩ := h.edited y v hv
    refine ⟨m, tag', hcount ▸ hm, by rw [hedit, if_neg hback, hf], ?_⟩
    rw [hget, if_neg, ha]
    -- two edit variables under one label would be one variable
    intro heq
    rw [heq, hactive] at ha
    have hexpr := congrArg Constraint.expression (Active.mk.inj (Option.some.inj ha)).1
    exact hback (Term.mk.inj (List.cons.inj (Linear.mk.inj hexpr).2).1).1.symm
  · rw [hedit] at hf
    split at hf
    · cases hf
    · next hne =>
      obtain ⟨y, v, hv, hback⟩ := h.wished z f hf
      refine ⟨y, v, (Function.update_of_ne ?_ ..).trans hv, hback⟩
      rintro rfl
      exact hne hback.symm
  · rw [hget] at ha
    split at ha
    · cases ha
    · next hne =>
      obtain ⟨y, v, f, hv, hf, hfa⟩ := h.backed m a ha
      have hyx : y ≠ x := by
        rintro rfl
        rw [hedited] at hf
        obtain rfl := Option.some.inj hf
        have hlabel := hlabelled _ a ha
        rw [← hfa] at hlabel
        exact hne hlabel.symm
      refine ⟨y, v, f, (Function.update_of_ne hyx ..).trans hv, ?_, hfa⟩
      rw [hedit, if_neg fun heq => hyx (hapart y v hv heq), hf]

/-! ## Mirrors -/

/-- The solver holds what the demand asks for, and nothing else. -/
structure Mirrors (d : Demand α) (s : Solver α) : Prop extends
    s.Holds d.constraints, s.Tends d.wishes where
  arises : s.Arises
  labelled : s.Labelled

theorem Mirrors.empty (steps : Nat) : Mirrors (Demand.empty : Demand α) (.empty steps) where
  arises := .empty steps
  labelled _ _ h := by cases h
  held _ _ h := by cases h
  asked _ _ h := by cases h
  edited _ _ h := by cases h
  wished _ _ h := by cases h
  backed _ _ h := by cases h

namespace Mirrors

/-- The label of a constraint that is to be asked for is free. -/
theorem vacant (h : Mirrors d s) (ho : d.constraints o = none)
    (hfit : (d.withConstraint o (some c)).Fit) : s.constraints.get? c.label = none := by
  obtain ⟨n, hn⟩ := hfit.caller o c (Function.update_self ..)
  cases ha : s.constraints.get? c.label with
  | none => rfl
  | some a =>
    rw [hn] at ha
    obtain ⟨o', ho'⟩ := h.asked n a ha
    have hne : o' ≠ o := by
      rintro rfl
      rw [ho] at ho'
      cases ho'
    have hlabel : a.constraint.label = c.label := (h.labelled _ a ha).trans hn.symm
    refine absurd (hfit.apart o' o a.constraint c ?_ (Function.update_self ..) hlabel) hne
    exact (Function.update_of_ne hne ..).trans ho'

/-- Adding a constraint that is asked for in addition. -/
theorem hold (h : Mirrors d s) (ho : d.constraints o = none)
    (hfit : (d.withConstraint o (some c)).Fit) :
    (addConstraint c).Ensures s (fun _ s' => Mirrors (d.withConstraint o (some c)) s')
      (fun e _ => e.isDenial = false) := by
  have hvacant := h.vacant ho hfit
  obtain ⟨n, hn⟩ := hfit.caller o c (Function.update_self ..)
  have hmade := hfit.made o c (Function.update_self ..)
  refine ((addConstraint_lists c s).and (ensures_run _ s)).mono ?_ ?_
  · rintro ⟨⟩ s' ⟨⟨-, ⟨tag, hconstraints⟩, hedits, hcount⟩, hrun⟩
    have hget (label : Label) : s'.constraints.get? label
        = if label = c.label then some ⟨c, tag⟩ else s.constraints.get? label := by
      rw [hconstraints, OrderedMap.get?_insert]
    exact {
      toHolds := h.toHolds.of_insert ho hvacant hget
      toTends := h.toTends.congr hedits hcount fun m => by rw [hget, hn, if_neg (by simp)]
      arises := .call (.addConstraint c) hmade hrun h.arises
      labelled := h.labelled.of_insert hget rfl }
  · rintro e t ⟨hdenial, -⟩
    by_contra htrue
    exact hdenial (by simpa using htrue) hvacant

/-- Removing a constraint that is no longer asked for. -/
theorem drop (h : Mirrors d s) (hfit : d.Fit) (ho : d.constraints o = some c) :
    (removeConstraint c.label).Ensures s (fun _ s' => Mirrors (d.withConstraint o none) s')
      (fun e _ => e.isDenial = false) := by
  obtain ⟨n, hn⟩ := hfit.caller o c ho
  obtain ⟨tag, hheld⟩ := h.held o c ho
  refine ((removeConstraint_lists c.label s).and (ensures_run _ s)).mono ?_ ?_
  · rintro ⟨⟩ s' ⟨⟨-, hconstraints, hedits, hcount⟩, hrun⟩
    have hget (label : Label) : s'.constraints.get? label
        = if label = c.label then none else s.constraints.get? label := by
      rw [hconstraints, OrderedMap.get?_swapErase]
    have hapart (o' : Owner) (c' : Constraint α) (hc' : d.constraints o' = some c')
        (hlabel : c'.label = c.label) : o' = o := hfit.apart o' o c' c hc' ho hlabel
    exact {
      toHolds := h.toHolds.of_erase h.labelled ho hapart hget
      toTends := h.toTends.congr hedits hcount fun m => by rw [hget, hn, if_neg (by simp)]
      arises := .call (.removeConstraint c.label) trivial hrun h.arises
      labelled := h.labelled.of_erase hget }
  · rintro e t ⟨hdenial, -⟩
    by_contra htrue
    have hnone := hdenial (by simpa using htrue)
    rw [hheld] at hnone
    cases hnone

/-- Other variables have other backings than one that is to be wished for. -/
theorem apart_of_fit (hx : d.wishes x = none) (hfit : (d.withWish x (some w)).Fit) {y : VariableId}
    {v : Wish α} (hv : d.wishes y = some v) : y.backing ≠ x.backing := by
  have hne : y ≠ x := by
    rintro rfl
    rw [hx] at hv
    cases hv
  refine fun hback => hne (hfit.backings y x v w ?_ (Function.update_self ..) hback)
  exact (Function.update_of_ne hne ..).trans hv

/-- An edit variable that is not wished for is none of the solver's. -/
theorem unedited (h : Mirrors d s) (hx : d.wishes x = none) (hfit : (d.withWish x (some w)).Fit) :
    s.edits.get? x.backing = none := by
  cases hf : s.edits.get? x.backing with
  | none => rfl
  | some f =>
    obtain ⟨y, v, hv, hback⟩ := h.wished _ f hf
    exact absurd hback (apart_of_fit hx hfit hv)

/-- The label of the next edit constraint is free. -/
theorem unlabelled (h : Mirrors d s) : s.constraints.get? (.edit s.editCount) = none := by
  cases ha : s.constraints.get? (.edit s.editCount) with
  | none => rfl
  | some a =>
    obtain ⟨x, w, f, hw, hf, hfa⟩ := h.backed _ a ha
    obtain ⟨n, tag, hn, hf', -⟩ := h.edited x w hw
    rw [hf] at hf'
    obtain rfl := Option.some.inj hf'
    have hlabel := h.labelled _ a ha
    rw [← hfa] at hlabel
    have hlabel : Label.edit n = .edit s.editCount := hlabel
    rw [Label.edit.inj hlabel] at hn
    exact absurd hn (Nat.lt_irrefl _)

/-- Adding an edit variable, with the target zero. -/
theorem addWish (h : Mirrors d s) (hgraded : Strength.Graded α) {p : Priority}
    (hx : d.wishes x = none) (hfit : (d.withWish x (some ⟨p, 0⟩)).Fit) :
    (addEditVariable x.backing (.ofPriority p)).Ensures s
      (fun _ s' => Mirrors (d.withWish x (some ⟨p, 0⟩)) s') (fun e _ => e.isDenial = false) := by
  refine ((addEditVariable_lists x.backing (.ofPriority p) s).and (ensures_run _ s)).mono ?_ ?_
  · rintro ⟨⟩ s' ⟨⟨-, -, ⟨tag, hconstraints, hedits⟩, hcount⟩, hrun⟩
    have hget (label : Label) : s'.constraints.get? label = if label = .edit s.editCount then
        some ⟨.forEdit s.editCount x.backing (.ofPriority p), tag⟩ else s.constraints.get? label := by
      rw [hconstraints, OrderedMap.get?_insert]
    have hedit (z : Variable) : s'.edits.get? z = if z = x.backing then
        some ⟨tag, .forEdit s.editCount x.backing (.ofPriority p), 0⟩ else s.edits.get? z := by
      rw [hedits, OrderedMap.get?_insert]
    exact {
      toHolds := h.toHolds.congr hfit.caller fun m => by rw [hget, if_neg (by simp)]
      toTends := h.toTends.of_insert hx (fun _ _ hv => apart_of_fit hx hfit hv) hget hedit hcount
      arises := .call (.addEditVariable x.backing (.ofPriority p)) trivial hrun h.arises
      labelled := h.labelled.of_insert hget rfl }
  · rintro e t ⟨hdenial, -⟩
    by_contra htrue
    have hp := hfit.preferred x ⟨p, 0⟩ (Function.update_self ..)
    exact hdenial (by simpa using htrue) (h.unedited hx hfit) (hgraded p hp) h.unlabelled

/-- Moving the target of an edit variable. -/
theorem move (h : Mirrors d s) (hfit : d.Fit) (hx : d.wishes x = some w) (target : α) :
    (suggestValue x.backing target).Ensures s
      (fun _ s' => Mirrors (d.withWish x (some { w with target := target })) s')
      (fun e _ => e.isDenial = false) := by
  obtain ⟨n, tag, hn, hf, ha⟩ := h.edited x w hx
  refine ((suggestValue_lists x.backing target s).and (ensures_run _ s)).mono ?_ ?_
  · rintro ⟨⟩ s' ⟨⟨f, hf', hconstraints, hedits, hcount⟩, hrun⟩
    rw [hf] at hf'
    obtain rfl := Option.some.inj hf'
    have hedit (z : Variable) : s'.edits.get? z = if z = x.backing then
        some ⟨tag, .forEdit n x.backing (.ofPriority w.priority), target⟩ else s.edits.get? z := by
      rw [hedits, OrderedMap.get?_insert]
    have hapart (y : VariableId) (v : Wish α) (hv : d.wishes y = some v)
        (hback : y.backing = x.backing) : y = x := hfit.backings y x v w hv hx hback
    exact {
      toHolds := h.toHolds.congr hfit.caller fun m => by rw [hconstraints]
      toTends := h.toTends.of_retarget hx hapart hf hconstraints hcount hedit
      arises := .call (.suggestValue x.backing target) trivial hrun h.arises
      labelled := fun label a hb => h.labelled label a (hconstraints ▸ hb) }
  · rintro e t ⟨hdenial, -⟩
    by_contra htrue
    have hnone := hdenial (by simpa using htrue)
    rw [hf] at hnone
    cases hnone

/-- Taking an edit variable out. -/
theorem unwish (h : Mirrors d s) (hfit : d.Fit) (hx : d.wishes x = some w) :
    (removeEditVariable x.backing).Ensures s (fun _ s' => Mirrors (d.withWish x none) s')
      (fun e _ => e.isDenial = false) := by
  obtain ⟨n, tag, hn, hf, ha⟩ := h.edited x w hx
  refine ((removeEditVariable_lists x.backing s).and (ensures_run _ s)).mono ?_ ?_
  · rintro ⟨⟩ s' ⟨⟨f, hf', hconstraints, hedits, hcount⟩, hrun⟩
    rw [hf] at hf'
    obtain rfl := Option.some.inj hf'
    have hget (label : Label) : s'.constraints.get? label
        = if label = .edit n then none else s.constraints.get? label := by
      rw [hconstraints]
      exact OrderedMap.get?_swapErase _ _ _
    have hedit (z : Variable) : s'.edits.get? z
        = if z = x.backing then none else s.edits.get? z := by
      rw [hedits, OrderedMap.get?_swapErase]
    have hapart (y : VariableId) (v : Wish α) (hv : d.wishes y = some v)
        (hback : y.backing = x.backing) : y = x := hfit.backings y x v w hv hx hback
    exact {
      toHolds := h.toHolds.congr hfit.caller fun m => by rw [hget, if_neg (by simp)]
      toTends := h.toTends.of_erase h.labelled hapart hf ha ⟨_, rfl⟩ hget hedit hcount
      arises := .call (.removeEditVariable x.backing) trivial hrun h.arises
      labelled := h.labelled.of_erase hget }
  · rintro e t ⟨hdenial, -⟩
    by_contra htrue
    have hnone := hdenial (by simpa using htrue) _ hf
    have hheld : s.constraints.get? (.edit n) = none := hnone
    rw [ha] at hheld
    cases hheld

/-- Reading the values of a solver. -/
theorem updateVariables (h : Mirrors d s) : Mirrors d s.updateVariables :=
  { h with arises := .call .updateVariables trivial rfl h.arises }

end Mirrors

end BoxLayout
