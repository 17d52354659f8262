-- SUMMARY: What the registries demand of values, and that a solver that mirrors them demands the same.
import BoxLayout.Proofs.Runs
import BoxLayout.Proofs.Rebuild
import BoxLayout.Proofs.Expressions

/-!
# Values of registered variables

The registries say what values are to be found: required variables are at their targets
and enabled required constraints hold. Beyond that, values cost what the other variables
are away from their targets and what the other enabled constraints are violated by,
weighed by the strengths of their priorities.

For a sound solver that mirrors the registries this is what it means that values meet its
constraints, and what their penalty is.
-/

namespace BoxLayout

open Attempt

/-! ## Strengths -/

/-- The strengths of priorities are in their range. -/
theorem Strength.clip_ofPriority (p : Priority) :
    (Strength.ofPriority p : Strength Rat).clip = .ofPriority p := by
  have hclip : (Strength.ofPriority p : Strength Rat).clip.weight = (Strength.ofPriority p).weight := by
    cases p <;> decide +kernel
  exact congrArg Strength.mk hclip

theorem Strength.isRequired_ofPriority (p : Priority) :
    (Strength.ofPriority p : Strength Rat).isRequired = p.isRequired := by
  cases p <;> decide +kernel

theorem Strength.graded : Strength.Graded Rat := fun p hp => by
  rw [clip_ofPriority, isRequired_ofPriority, hp]

/-! ## Definitions -/

theorem Relation.holds_sub {r : Relation} {a b : Rat} : r.Holds (a - b) 0 ↔ r.Holds a b := by
  cases r with
  | equal => exact sub_eq_zero
  | atMost => exact sub_nonpos
  | atLeast => exact sub_nonneg

/-- What the definition states holds of the values. -/
def Definition.Holds (d : Definition Rat) (y : VariableId → Rat) : Prop :=
  d.relation.Holds (d.lhs.eval y) (d.rhs.eval y)

instance (d : Definition Rat) (y : VariableId → Rat) : Decidable (d.Holds y) :=
  inferInstanceAs (Decidable (d.relation.Holds (d.lhs.eval y) (d.rhs.eval y)))

/-- How far the definition is from holding. -/
def Definition.violation (d : Definition Rat) (y : VariableId → Rat) : Rat :=
  d.relation.violation (d.lhs.eval y - d.rhs.eval y)

variable {d : Definition Rat} {label : Label} {y : Variable → Rat}

theorem Definition.holds_backing :
    (d.backing label).Holds y ↔ d.Holds fun x => y x.backing := by
  unfold Constraint.Holds
  rw [eval_backing]
  exact Relation.holds_sub

theorem Definition.strength_backing (d : Definition Rat) (label : Label) :
    (d.backing label).strength = .ofPriority d.priority := Strength.clip_ofPriority _

theorem Definition.isRequired_backing (d : Definition Rat) (label : Label) :
    (d.backing label).isRequired = d.priority.isRequired := by
  unfold Constraint.isRequired
  rw [strength_backing, Strength.isRequired_ofPriority]

theorem Constraint.isRequired_pin (label : Label) (x : Variable) (target : Rat) :
    (Constraint.pin label x target).isRequired = true := by
  change ((Strength.ofPriority .p0 : Strength Rat).clip).isRequired = true
  rw [Strength.clip_ofPriority, Strength.isRequired_ofPriority]
  rfl

theorem Constraint.holds_pin {x : Variable} {target : Rat} :
    (Constraint.pin label x target).Holds y ↔ y x = target := by
  change ((Linear.ofUnknown x).addScaled (.ofConstant target) (-1)).eval y = 0 ↔ _
  rw [Linear.eval_addScaled, Linear.eval_ofUnknown, Linear.eval_ofConstant]
  constructor <;> intro h <;> linarith

/-! ## What is demanded of values -/

/-- What a target costs that is not met. -/
def VariableEntry.cost (entry : VariableEntry Rat) (value : Rat) : Rat :=
  if entry.priority.isRequired then 0
  else (Strength.ofPriority entry.priority).weight * |value - entry.target|

/-- What a constraint costs that does not hold. -/
def ConstraintEntry.cost (entry : ConstraintEntry Rat) (y : VariableId → Rat) : Rat :=
  if entry.definition.priority.isRequired then 0
  else (Strength.ofPriority entry.definition.priority).weight * entry.definition.violation y

namespace Engine

variable {e : Engine Rat} {y z : VariableId → Rat}

/-- The values meet what is required. -/
structure Required (e : Engine Rat) (y : VariableId → Rat) : Prop where
  vars : ∀ x entry, e.vars.entries.get? x = some entry → entry.priority = .p0 → y x = entry.target
  constraints : ∀ c entry, e.constraints.entries.get? c = some entry → entry.enabled = true →
    entry.definition.priority = .p0 → entry.definition.Holds y

instance (e : Engine Rat) (y : VariableId → Rat) : Decidable (e.Required y) :=
  decidable_of_iff
    ((∀ v ∈ e.vars.entries.entries, v.2.priority = .p0 → y v.1 = v.2.target) ∧
      ∀ c ∈ e.constraints.entries.entries, c.2.enabled = true →
        c.2.definition.priority = .p0 → c.2.definition.Holds y)
    ⟨fun ⟨hvars, hconstraints⟩ =>
      ⟨fun x entry hx => hvars (x, entry) (OrderedMap.mem_entries_iff.2 hx),
        fun c entry hc => hconstraints (c, entry) (OrderedMap.mem_entries_iff.2 hc)⟩,
      fun h => ⟨fun v hv => h.vars v.1 v.2 (OrderedMap.mem_entries_iff.1 hv),
        fun c hc => h.constraints c.1 c.2 (OrderedMap.mem_entries_iff.1 hc)⟩⟩

/-- What the values cost beyond that, weighed by strength. -/
def cost (e : Engine Rat) (y : VariableId → Rat) : Rat :=
  (e.vars.entries.entries.map fun v => v.2.cost (y v.1)).sum
    + ((e.constraints.entries.values.filter ConstraintEntry.enabled).map fun entry =>
        entry.cost y).sum

/-- Only the values of registered variables matter. -/
theorem Registered.eval_congr (h : e.Registered) {c : ConstraintId} {entry : ConstraintEntry Rat}
    (hc : e.constraints.entries.get? c = some entry)
    (hyz : ∀ x v, e.vars.entries.get? x = some v → y x = z x) :
    entry.definition.lhs.eval y = entry.definition.lhs.eval z ∧
      entry.definition.rhs.eval y = entry.definition.rhs.eval z := by
  have hterm (x : VariableId) (hx : entry.definition.mentions x = true) : y x = z x := by
    obtain ⟨v, hv⟩ := h.mentioned c entry x hc hx
    exact hyz x v hv
  constructor
  · refine Linear.eval_congr fun t ht _ => hterm t.unknown (Bool.or_eq_true_iff.2 (Or.inl ?_))
    exact Linear.mentions_iff.2 (List.mem_map.2 ⟨t, ht, rfl⟩)
  · refine Linear.eval_congr fun t ht _ => hterm t.unknown (Bool.or_eq_true_iff.2 (Or.inr ?_))
    exact Linear.mentions_iff.2 (List.mem_map.2 ⟨t, ht, rfl⟩)

theorem Registered.required_congr (h : e.Registered)
    (hyz : ∀ x v, e.vars.entries.get? x = some v → y x = z x) (hy : e.Required y) : e.Required z := by
  refine ⟨fun x entry hx hp => ?_, fun c entry hc hon hp => ?_⟩
  · rw [← hyz x entry hx]
    exact hy.vars x entry hx hp
  · obtain ⟨hlhs, hrhs⟩ := h.eval_congr hc hyz
    have hholds := hy.constraints c entry hc hon hp
    unfold Definition.Holds at hholds ⊢
    rw [← hlhs, ← hrhs]
    exact hholds

theorem Registered.cost_congr (h : e.Registered)
    (hyz : ∀ x v, e.vars.entries.get? x = some v → y x = z x) : e.cost y = e.cost z := by
  unfold cost
  congr 2
  · apply List.map_congr_left
    rintro ⟨x, entry⟩ hx
    dsimp only
    rw [hyz x entry (OrderedMap.mem_entries_iff.1 hx)]
  · apply List.map_congr_left
    intro entry hentry
    obtain ⟨c, hc⟩ := OrderedMap.mem_values_iff.1 (List.mem_filter.1 hentry).1
    obtain ⟨hlhs, hrhs⟩ := h.eval_congr hc hyz
    unfold ConstraintEntry.cost Definition.violation
    rw [hlhs, hrhs]

/-- Values of the solver's variables that go with values of the engine's. -/
theorem Registered.exists_lift (h : e.Registered) (y : VariableId → Rat) :
    ∃ z : Variable → Rat, ∀ x v, e.vars.entries.get? x = some v → y x = z x.backing := by
  refine ⟨fun z => y ⟨e.id, z.number⟩, fun x v hx => ?_⟩
  obtain ⟨owner, index⟩ := x
  obtain rfl : owner = e.id := (h.vars _ v hx).1
  rfl

end Engine

/-! ## What a solver demands -/

/-- A solver that successful calls have left is sound, and no strength in it is negative. -/
theorem Solver.Arises.sound {s : Solver Rat} (h : s.Arises) : s.Sound ∧ s.Weighted := by
  induction h with
  | empty steps => exact ⟨sound_empty steps, fun _ _ ha => by cases ha⟩
  | call c hmade hrun _ ih =>
    have hkeeps := (run_ensures ih.1 c).of_ok hrun
    exact ⟨hkeeps.sound, hkeeps.weighted hmade ih.2⟩

namespace Mirrors

variable {d : Demand Rat} {s : Solver Rat} {e : Engine Rat} {y : Variable → Rat}

/-- A constraint that is active is a pin, a backing, or holds an edit variable. -/
theorem active_cases (h : Mirrors d s) (hsub : d.Sub e.demand) {label : Label} {a : Active Rat}
    (ha : s.constraints.get? label = some a) :
    (∃ x entry, e.vars.entries.get? x = some entry ∧ entry.pin = some a.constraint) ∨
    (∃ c entry, e.constraints.entries.get? c = some entry ∧ entry.enabled = true ∧
      entry.backing = a.constraint) ∨
    ∃ x w n, d.wishes x = some w ∧
      a.constraint = .forEdit n x.backing (.ofPriority w.priority) := by
  cases label with
  | caller n =>
    obtain ⟨o, ho⟩ := h.asked n a ha
    have ho := hsub.constraints o _ ho
    cases o with
    | var x =>
      obtain ⟨entry, hentry, hpin⟩ := Option.bind_eq_some_iff.1 ho
      exact Or.inl ⟨x, entry, hentry, hpin⟩
    | constraint c =>
      exact Or.inr (Or.inl ⟨c, Engine.demand_constraint_iff.1 ho⟩)
  | edit n =>
    obtain ⟨x, w, f, hw, hf, hfa⟩ := h.backed n a ha
    obtain ⟨m, tag, -, hf', -⟩ := h.edited x w hw
    rw [hf] at hf'
    obtain rfl := Option.some.inj hf'
    exact Or.inr (Or.inr ⟨x, w, m, hw, hfa.symm⟩)

/-- Values that meet what is required meet the constraints of a solver that holds a part of it. -/
theorem meets_of_required (h : Mirrors d s) (hreg : e.Registered) (hsub : d.Sub e.demand)
    (hy : e.Required fun x => y x.backing) : s.Meets y := by
  intro label a ha hreq
  obtain ⟨x, entry, hx, hpin⟩ | ⟨c, entry, hc, hon, hbacking⟩ | ⟨x, w, n, hw, hedit⟩ :=
    h.active_cases hsub ha
  · obtain ⟨hp, n, -, heq⟩ := (hreg.vars x entry hx).2.2.pin_eq_some hpin
    rw [heq]
    exact Constraint.holds_pin.2 (hy.vars x entry hx (Priority.isRequired_iff.1 hp))
  · obtain ⟨n, -, heq⟩ := (hreg.constraints c entry hc).2.2
    rw [← hbacking, heq] at hreq ⊢
    rw [Definition.isRequired_backing] at hreq
    exact Definition.holds_backing.2 (hy.constraints c entry hc hon (Priority.isRequired_iff.1 hreq))
  · have hp := (hreg.fit.sub hsub).preferred x w hw
    unfold Constraint.isRequired at hreq
    rw [hedit, Constraint.strength_forEdit, Strength.clip_ofPriority,
      Strength.isRequired_ofPriority, hp] at hreq
    cases hreq

/-- The constraints of a solver that mirrors the registries are met by the values that meet
what is required. -/
theorem meets_iff (h : Mirrors e.demand s) (hreg : e.Registered) :
    s.Meets y ↔ e.Required fun x => y x.backing := by
  constructor
  · intro hy
    refine ⟨fun x entry hx hp => ?_, fun c entry hc hon hp => ?_⟩
    · obtain ⟨n, -, hpin⟩ := (hreg.vars x entry hx).2.2
      unfold VariableEntry.pinFor at hpin
      rw [if_pos (Priority.isRequired_iff.2 hp)] at hpin
      obtain ⟨tag, hheld⟩ := h.held (.var x) _ ((Engine.demand_var hx).1.trans hpin)
      exact Constraint.holds_pin.1 (hy _ _ hheld (Constraint.isRequired_pin _ _ _))
    · obtain ⟨n, -, hbacking⟩ := (hreg.constraints c entry hc).2.2
      obtain ⟨tag, hheld⟩ := h.held _ _ (Engine.demand_enabled hc hon)
      rw [hbacking] at hheld
      refine Definition.holds_backing.1 (hy _ _ hheld ?_)
      exact (Definition.isRequired_backing _ _).trans (Priority.isRequired_iff.2 hp)
  · intro hy
    exact h.meets_of_required hreg ⟨fun _ _ ho => ho, fun _ _ hx => hx⟩ hy

/-! ## Penalties -/

/-- The label under which the solver holds a variable, by its pin or as an edit variable. -/
def labelOf (s : Solver Rat) (v : VariableId × VariableEntry Rat) : Label :=
  match v.2.pin with
  | some pin => pin.label
  | none => ((s.edits.get? v.1.backing).map fun f => f.constraint.label).getD (.edit 0)

theorem labelOf_pinned (h : Mirrors e.demand s) {x : VariableId} {entry : VariableEntry Rat}
    (hx : e.vars.entries.get? x = some entry) {pin : Constraint Rat} (hpin : entry.pin = some pin) :
    labelOf s (x, entry) = pin.label ∧ ∃ tag, s.constraints.get? pin.label = some ⟨pin, tag⟩ := by
  refine ⟨?_, h.held (.var x) pin ((Engine.demand_var hx).1.trans hpin)⟩
  unfold labelOf
  rw [hpin]

theorem labelOf_wished (h : Mirrors e.demand s) {x : VariableId} {entry : VariableEntry Rat}
    (hx : e.vars.entries.get? x = some entry) (hpin : entry.pin = none) :
    ∃ n tag, labelOf s (x, entry) = .edit n ∧
      s.edits.get? x.backing
        = some ⟨tag, .forEdit n x.backing (.ofPriority entry.priority), entry.target⟩ ∧
      s.constraints.get? (.edit n)
        = some ⟨.forEdit n x.backing (.ofPriority entry.priority), tag⟩ := by
  have hwish := (Engine.demand_var hx).2
  rw [Option.bind_some, VariableEntry.wish, hpin] at hwish
  obtain ⟨n, tag, -, hf, ha⟩ := h.edited x ⟨entry.priority, entry.target⟩ hwish
  refine ⟨n, tag, ?_, hf, ha⟩
  unfold labelOf
  rw [hpin]
  dsimp only
  rw [hf]
  rfl

/-- Variables are held under different labels. -/
theorem labelOf_injective (h : Mirrors e.demand s) (hreg : e.Registered)
    {x x' : VariableId} {entry entry' : VariableEntry Rat}
    (hx : e.vars.entries.get? x = some entry) (hx' : e.vars.entries.get? x' = some entry')
    (hlabel : labelOf s (x, entry) = labelOf s (x', entry')) : x = x' := by
  cases hpin : entry.pin with
  | some pin =>
    have hpinned := (h.labelOf_pinned hx hpin).1
    have ho : e.demand.constraints (.var x) = some pin := (Engine.demand_var hx).1.trans hpin
    cases hpin' : entry'.pin with
    | some pin' =>
      have hpinned' := (h.labelOf_pinned hx' hpin').1
      have ho' : e.demand.constraints (.var x') = some pin' := (Engine.demand_var hx').1.trans hpin'
      rw [hpinned, hpinned'] at hlabel
      exact Owner.var.inj (hreg.fit.apart _ _ pin pin' ho ho' hlabel)
    | none =>
      obtain ⟨n, tag, hwished', -⟩ := h.labelOf_wished hx' hpin'
      obtain ⟨m, hm⟩ := hreg.fit.caller _ _ ho
      rw [hpinned, hwished', hm] at hlabel
      cases hlabel
  | none =>
    obtain ⟨n, tag, hwished, -, ha⟩ := h.labelOf_wished hx hpin
    cases hpin' : entry'.pin with
    | some pin' =>
      have hpinned' := (h.labelOf_pinned hx' hpin').1
      obtain ⟨m, hm⟩ := hreg.fit.caller _ _ ((Engine.demand_var hx').1.trans hpin')
      rw [hwished, hpinned', hm] at hlabel
      cases hlabel
    | none =>
      obtain ⟨n', tag', hwished', -, ha'⟩ := h.labelOf_wished hx' hpin'
      rw [hwished, hwished'] at hlabel
      rw [hlabel, ha'] at ha
      have hexpr := congrArg Constraint.expression (Active.mk.inj (Option.some.inj ha)).1
      have hback := (Term.mk.inj (List.cons.inj (Linear.mk.inj hexpr).2).1).1
      exact hreg.backing_injective hx hx' hback.symm

/-- The labels under which the solver holds the variables and the enabled constraints. -/
def labelsOf (s : Solver Rat) (e : Engine Rat) : List Label :=
  e.vars.entries.entries.map (labelOf s)
    ++ (e.constraints.entries.entries.filter fun v => v.2.enabled).map fun v => v.2.backing.label

/-- No variable is held under the label of an enabled constraint. -/
theorem labelOf_ne_backing (h : Mirrors e.demand s) (hreg : e.Registered) {x : VariableId}
    {entry : VariableEntry Rat} (hx : e.vars.entries.get? x = some entry) {c : ConstraintId}
    {k : Constraint Rat} (hk : e.demand.constraints (.constraint c) = some k) :
    labelOf s (x, entry) ≠ k.label := by
  intro hsame
  cases hpin : entry.pin with
  | some pin =>
    have ho : e.demand.constraints (.var x) = some pin := (Engine.demand_var hx).1.trans hpin
    rw [(h.labelOf_pinned hx hpin).1] at hsame
    cases hreg.fit.apart _ _ _ _ ho hk hsame
  | none =>
    obtain ⟨n, tag, hwished, -⟩ := h.labelOf_wished hx hpin
    obtain ⟨m, hm⟩ := hreg.fit.caller _ _ hk
    rw [hwished, hm] at hsame
    cases hsame

theorem nodup_labelsOf (h : Mirrors e.demand s) (hreg : e.Registered) : (labelsOf s e).Nodup := by
  refine List.nodup_append.2 ⟨?_, ?_, ?_⟩
  · refine List.Nodup.map_on ?_ (List.Nodup.of_map Prod.fst e.vars.entries.nodup)
    rintro ⟨x, entry⟩ hx ⟨x', entry'⟩ hx' hlabel
    have hx := OrderedMap.mem_entries_iff.1 hx
    have hx' := OrderedMap.mem_entries_iff.1 hx'
    obtain rfl := h.labelOf_injective hreg hx hx' hlabel
    rw [hx] at hx'
    rw [Option.some.inj hx']
  · refine List.Nodup.map_on ?_
      ((List.Nodup.of_map Prod.fst e.constraints.entries.nodup).filter _)
    rintro ⟨c, entry⟩ hc ⟨c', entry'⟩ hc' hlabel
    obtain ⟨hc, hon⟩ := List.mem_filter.1 hc
    obtain ⟨hc', hon'⟩ := List.mem_filter.1 hc'
    have hc := OrderedMap.mem_entries_iff.1 hc
    have hc' := OrderedMap.mem_entries_iff.1 hc'
    have howner := hreg.fit.apart _ _ _ _ (Engine.demand_enabled hc hon)
      (Engine.demand_enabled hc' hon') hlabel
    obtain rfl := Owner.constraint.inj howner
    rw [hc] at hc'
    rw [Option.some.inj hc']
  · rintro _ hleft _ hright rfl
    obtain ⟨⟨x, entry⟩, hx, hlabel⟩ := List.mem_map.1 hleft
    obtain ⟨⟨c, other⟩, hc, hlabel'⟩ := List.mem_map.1 hright
    obtain ⟨hc, hon⟩ := List.mem_filter.1 hc
    have hwanted := Engine.demand_enabled (OrderedMap.mem_entries_iff.1 hc) hon
    exact h.labelOf_ne_backing hreg (OrderedMap.mem_entries_iff.1 hx) hwanted
      (hlabel.trans hlabel'.symm)

/-- Whatever the solver holds is held for a variable or an enabled constraint. -/
theorem mem_labelsOf (h : Mirrors e.demand s) {label : Label} {a : Active Rat}
    (ha : s.constraints.get? label = some a) : label ∈ labelsOf s e := by
  have hlabel := h.labelled label a ha
  refine List.mem_append.2 ?_
  cases label with
  | caller n =>
    obtain ⟨o, ho⟩ := h.asked n a ha
    cases o with
    | var x =>
      obtain ⟨entry, hx, hpin⟩ := Option.bind_eq_some_iff.1 ho
      refine Or.inl (List.mem_map.2 ⟨(x, entry), OrderedMap.mem_entries_iff.2 hx, ?_⟩)
      rw [(h.labelOf_pinned hx hpin).1, hlabel]
    | constraint c =>
      obtain ⟨entry, hc, hon, hbacking⟩ := Engine.demand_constraint_iff.1 ho
      refine Or.inr (List.mem_map.2 ⟨(c, entry), List.mem_filter.2
        ⟨OrderedMap.mem_entries_iff.2 hc, hon⟩, ?_⟩)
      exact (congrArg Constraint.label hbacking).trans hlabel
  | edit n =>
    obtain ⟨x, w, f, hw, hf, hfa⟩ := h.backed n a ha
    obtain ⟨entry, hx, hwish⟩ := Option.bind_eq_some_iff.1 hw
    refine Or.inl (List.mem_map.2 ⟨(x, entry), OrderedMap.mem_entries_iff.2 hx, ?_⟩)
    unfold VariableEntry.wish at hwish
    split at hwish
    · cases hwish
    · next hpin =>
      unfold labelOf
      rw [hpin]
      dsimp only
      rw [hf]
      exact (congrArg Constraint.label hfa).trans hlabel

/-- For each of them it holds something. -/
theorem exists_of_mem_labelsOf (h : Mirrors e.demand s) {label : Label} (hl : label ∈ labelsOf s e) :
    ∃ a, s.constraints.get? label = some a := by
  obtain hmem | hmem := List.mem_append.1 hl
  · obtain ⟨⟨x, entry⟩, hx, rfl⟩ := List.mem_map.1 hmem
    have hx := OrderedMap.mem_entries_iff.1 hx
    cases hpin : entry.pin with
    | some pin =>
      obtain ⟨hlabel, tag, hheld⟩ := h.labelOf_pinned hx hpin
      exact ⟨_, hlabel ▸ hheld⟩
    | none =>
      obtain ⟨n, tag, hlabel, -, hheld⟩ := h.labelOf_wished hx hpin
      exact ⟨_, hlabel ▸ hheld⟩
  · obtain ⟨⟨c, entry⟩, hc, rfl⟩ := List.mem_map.1 hmem
    obtain ⟨hc, hon⟩ := List.mem_filter.1 hc
    obtain ⟨tag, hheld⟩ := h.held _ _ (Engine.demand_enabled (OrderedMap.mem_entries_iff.1 hc) hon)
    exact ⟨_, hheld⟩

/-- What the solver holds is what the variables and the enabled constraints ask for. -/
theorem keys_perm (h : Mirrors e.demand s) (hreg : e.Registered) :
    s.constraints.keys.Perm (labelsOf s e) := by
  refine (List.perm_ext_iff_of_nodup s.constraints.nodup_keys (h.nodup_labelsOf hreg)).2 fun label => ?_
  rw [OrderedMap.mem_keys_iff]
  exact ⟨fun ⟨_, ha⟩ => h.mem_labelsOf ha, h.exists_of_mem_labelsOf⟩

/-- What an active constraint adds to the penalty. -/
def share (s : Solver Rat) (y : Variable → Rat) (a : Active Rat) : Rat :=
  if a.constraint.isRequired then 0
  else a.constraint.strength.weight * a.constraint.relation.violation (s.gap a y)

theorem share_var (h : Mirrors e.demand s) (hreg : e.Registered) (hs : s.Formed) {x : VariableId}
    {entry : VariableEntry Rat} (hx : e.vars.entries.get? x = some entry) (y : Variable → Rat) :
    (s.constraints.get? (labelOf s (x, entry))).map (share s y) = some (entry.cost (y x.backing)) := by
  have hfits := (hreg.vars x entry hx).2.2
  unfold VariableEntry.cost
  cases hpin : entry.pin with
  | some pin =>
    obtain ⟨hlabel, tag, hheld⟩ := h.labelOf_pinned hx hpin
    obtain ⟨hp, n, -, rfl⟩ := hfits.pin_eq_some hpin
    rw [hlabel, hheld, Option.map_some, share, if_pos hp]
    exact congrArg some (if_pos (Constraint.isRequired_pin _ _ _))
  | none =>
    obtain ⟨n, tag, hlabel, hf, hheld⟩ := h.labelOf_wished hx hpin
    have hp := hfits.pin_eq_none hpin
    have hweight : (Constraint.forEdit n x.backing (.ofPriority entry.priority)).strength
        = (Strength.ofPriority entry.priority : Strength Rat) := by
      rw [Constraint.strength_forEdit, Strength.clip_ofPriority]
    have hreq : (Constraint.forEdit n x.backing (.ofPriority entry.priority : Strength Rat)).isRequired
        = false := by
      unfold Constraint.isRequired
      rw [hweight, Strength.isRequired_ofPriority, hp]
    have hgap : s.gap ⟨.forEdit n x.backing (.ofPriority entry.priority), tag⟩ y
        = y x.backing - entry.target := by
      unfold Solver.gap
      rw [hs.targetOf_eq hf]
      change (Linear.ofUnknown x.backing).eval y - _ = _
      rw [Linear.eval_ofUnknown]
    rw [hlabel, hheld, Option.map_some, share, hp, hgap]
    dsimp only
    rw [hreq, hweight]
    rfl

/-- No edit variable moves the backing of a registered constraint. -/
theorem targetOf_backing (h : Mirrors d s) (hs : s.Formed) {n : Nat} {a : Active Rat}
    (ha : s.constraints.get? (.caller n) = some a) : s.targetOf a.tag = 0 := by
  refine Solver.targetOf_eq_zero fun z f hf htag => ?_
  obtain ⟨x, w, hw, hback⟩ := h.wished z f hf
  obtain ⟨m, tag, -, hf', -⟩ := h.edited x w hw
  rw [hback, hf] at hf'
  obtain rfl := Option.some.inj hf'
  have hsame := hs.editActive z _ _ a hf ha ⟨_, Tag.marker_mem _, htag ▸ Tag.marker_mem _⟩
  have hlabel := h.labelled _ a ha
  rw [hsame] at hlabel
  cases hlabel

theorem share_constraint (h : Mirrors e.demand s) (hreg : e.Registered) (hs : s.Formed)
    {c : ConstraintId} {entry : ConstraintEntry Rat} (hc : e.constraints.entries.get? c = some entry)
    (hon : entry.enabled = true) (y : Variable → Rat) :
    (s.constraints.get? entry.backing.label).map (share s y)
      = some (entry.cost fun x => y x.backing) := by
  obtain ⟨tag, hheld⟩ := h.held _ _ (Engine.demand_enabled hc hon)
  obtain ⟨n, -, hbacking⟩ := (hreg.constraints c entry hc).2.2
  rw [hbacking] at hheld ⊢
  have htarget := h.targetOf_backing hs (n := n) hheld
  rw [hheld, Option.map_some, share, Definition.isRequired_backing]
  unfold Solver.gap ConstraintEntry.cost Definition.violation
  rw [htarget, sub_zero, Definition.eval_backing, Definition.strength_backing]
  rfl

/-- The penalty of a solver that mirrors the registries is what the registries make of the
values. -/
theorem penalty_eq (h : Mirrors e.demand s) (hreg : e.Registered) (hs : s.Formed)
    (y : Variable → Rat) : s.penalty y = e.cost fun x => y x.backing := by
  let shareAt (label : Label) : Rat := ((s.constraints.get? label).map (share s y)).getD 0
  have hkeys : s.constraints.values.map (share s y) = s.constraints.keys.map shareAt := by
    unfold OrderedMap.values OrderedMap.keys Entries.keys
    rw [List.map_map, List.map_map]
    apply List.map_congr_left
    rintro ⟨label, a⟩ hmem
    simp only [Function.comp, shareAt, OrderedMap.mem_entries_iff.1 hmem]
    rfl
  have hvars : (e.vars.entries.entries.map (labelOf s)).map shareAt
      = e.vars.entries.entries.map fun v => v.2.cost (y v.1.backing) := by
    rw [List.map_map]
    apply List.map_congr_left
    rintro ⟨x, entry⟩ hmem
    simp only [Function.comp, shareAt,
      h.share_var hreg hs (OrderedMap.mem_entries_iff.1 hmem) y]
    rfl
  have hconstraints : ((e.constraints.entries.entries.filter fun v => v.2.enabled).map fun v =>
        v.2.backing.label).map shareAt
      = (e.constraints.entries.values.filter ConstraintEntry.enabled).map fun entry =>
        entry.cost fun x => y x.backing := by
    rw [filter_values, List.map_map, List.map_map]
    apply List.map_congr_left
    rintro ⟨c, entry⟩ hmem
    obtain ⟨hmem, hon⟩ := List.mem_filter.1 hmem
    simp only [Function.comp, shareAt,
      h.share_constraint hreg hs (OrderedMap.mem_entries_iff.1 hmem) hon y]
    rfl
  calc s.penalty y = (s.constraints.keys.map shareAt).sum := congrArg List.sum hkeys
    _ = ((labelsOf s e).map shareAt).sum := ((h.keys_perm hreg).map shareAt).sum_eq
    _ = e.cost fun x => y x.backing := by
        rw [labelsOf, List.map_append, List.sum_append, hvars, hconstraints]
        rfl

end Mirrors

end BoxLayout
