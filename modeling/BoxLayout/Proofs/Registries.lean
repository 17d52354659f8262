-- SUMMARY: How the registries of an engine fit together, through every kind of write, and what they ask of a solver.
import BoxLayout.Engine
import BoxLayout.Proofs.Demand

/-!
# The registries of an engine

Registered handles have been issued by the engine. A variable has its pin if it is
required, a constraint has the backing that states its definition, and the variables that
a definition mentions are registered. Labels are given out once, so that no two owners
state a constraint under one label.

There is one lemma for each kind of write: issuing a label or a handle, registering
something and taking it out.
-/

namespace BoxLayout

open Attempt

/-! ## Expressions over other unknowns -/

namespace Linear

variable {ν μ ε α : Type} {e : Linear ν α} {f : ν → Except ε μ} {g : ν → μ}

/-- The same expression over other unknowns. -/
def rename (g : ν → μ) (e : Linear ν α) : Linear μ α :=
  ⟨e.constant, e.terms.map fun t => ⟨g t.unknown, t.coefficient⟩⟩

/-- The first unknown that cannot be resolved decides whether an expression can be. -/
theorem resolve_cases (e : Linear ν α) {fault : ν → Option ε}
    (hok : ∀ u ∈ e.unknowns, fault u = none → f u = .ok (g u))
    (herror : ∀ u err, fault u = some err → f u = .error err) :
    (e.unknowns.findSome? fault = none ∧ e.resolve f = .ok (e.rename g)) ∨
    ∃ err, e.unknowns.findSome? fault = some err ∧ e.resolve f = .error err := by
  let resolveTerm (t : Term ν α) : Except ε (Term μ α) := do return ⟨← f t.unknown, t.coefficient⟩
  have hterms (ts : List (Term ν α))
      (hts : ∀ u ∈ ts.map Term.unknown, fault u = none → f u = .ok (g u)) :
      ((ts.map Term.unknown).findSome? fault = none ∧
        ts.mapM resolveTerm = .ok (ts.map fun t => ⟨g t.unknown, t.coefficient⟩)) ∨
      ∃ err, (ts.map Term.unknown).findSome? fault = some err ∧
        ts.mapM resolveTerm = .error err := by
    induction ts with
    | nil => exact Or.inl ⟨rfl, rfl⟩
    | cons t ts ih =>
      rw [List.map_cons, List.forall_mem_cons] at hts
      rw [List.mapM_cons, List.map_cons, List.findSome?_cons]
      cases hfault : fault t.unknown with
      | some err =>
        have hterm : resolveTerm t = .error err := by
          simp only [resolveTerm, herror _ _ hfault]; rfl
        rw [hterm]
        exact Or.inr ⟨err, rfl, rfl⟩
      | none =>
        have hterm : resolveTerm t = .ok ⟨g t.unknown, t.coefficient⟩ := by
          simp only [resolveTerm, hts.1 hfault]; rfl
        rw [hterm]
        obtain ⟨hnone, hrest⟩ | ⟨err, hsome, hrest⟩ := ih hts.2
        · rw [hrest]
          exact Or.inl ⟨hnone, rfl⟩
        · rw [hrest]
          exact Or.inr ⟨err, hsome, rfl⟩
  have hresolve : e.resolve f = (e.terms.mapM resolveTerm).bind fun ts => .ok ⟨e.constant, ts⟩ := rfl
  rw [hresolve, unknowns]
  obtain ⟨hnone, hts⟩ | ⟨err, hsome, hts⟩ := hterms e.terms hok
  · rw [hts]
    exact Or.inl ⟨hnone, rfl⟩
  · rw [hts]
    exact Or.inr ⟨err, hsome, rfl⟩

theorem resolve_ok (h : ∀ u ∈ e.unknowns, f u = .ok (g u)) : e.resolve f = .ok (e.rename g) := by
  let fault : ν → Option ε := fun _ => none
  obtain ⟨-, hok⟩ | ⟨err, hsome, -⟩ :=
    e.resolve_cases (fun u hu (_ : fault u = none) => h u hu) fun _ _ hsome => nomatch hsome
  · exact hok
  · obtain ⟨u, -, hu⟩ := List.exists_of_findSome?_eq_some hsome
    cases hu

theorem mentions_iff [DecidableEq ν] {u : ν} : e.mentions u = true ↔ u ∈ e.unknowns := by
  unfold mentions unknowns
  rw [List.any_eq_true, List.mem_map]
  simp only [decide_eq_true_iff]

end Linear

/-! ## Handles -/

namespace Registry

variable {kind : HandleKind} {ε : Type} {r : Registry kind ε} {h : Handle kind} {entry : ε}

theorem lookup_ok (hok : r.lookup h = .ok entry) : r.entries.get? h = some entry := by
  unfold lookup at hok
  split at hok
  · cases hget : r.entries.get? h with
    | none =>
      rw [hget] at hok
      cases hok
    | some other =>
      rw [hget] at hok
      cases hok
      rfl
  · cases hok

theorem get?_put (r : Registry kind ε) (h : Handle kind) (entry : ε) :
    (r.put h entry).entries.get? = Function.update r.entries.get? h (some entry) := by
  funext j
  rw [Function.update_apply]
  exact OrderedMap.get?_insert _ _ _ _

theorem get?_put_self (r : Registry kind ε) (h : Handle kind) (entry : ε) :
    (r.put h entry).entries.get? h = some entry := by
  rw [get?_put, Function.update_self]

theorem put_of_get? (hget : r.entries.get? h = some entry) : r.put h entry = r := by
  unfold put
  rw [OrderedMap.insert_of_get? hget]

theorem get?_erase (r : Registry kind ε) (h : Handle kind) :
    (r.entries.erase h).get? = Function.update r.entries.get? h none := by
  funext j
  rw [Function.update_apply]
  exact OrderedMap.get?_erase _ _ _

theorem lookup_of_get? (howner : h.owner = r.owner) (hget : r.entries.get? h = some entry) :
    r.lookup h = .ok entry := by
  unfold lookup
  rw [if_pos howner, hget]

end Registry

/-! ## Entries -/

/-- The constraint that states a definition to the solver. -/
def Definition.backing {α : Type} [Scalar α] (d : Definition α) (label : Label) : Constraint α :=
  .compare label (d.lhs.rename Handle.backing) d.relation (d.rhs.rename Handle.backing) d.priority

variable {α : Type} [Scalar α]

/-- The variable has its pin, under a label that has been issued. -/
def VariableEntry.Fits (labels : Nat) (x : VariableId) (entry : VariableEntry α) : Prop :=
  ∃ n < labels, entry.pin = pinFor (.caller n) x entry.priority entry.target

/-- The constraint has the backing that states its definition, under a label that has been
issued. -/
def ConstraintEntry.Fits (labels : Nat) (entry : ConstraintEntry α) : Prop :=
  ∃ n < labels, entry.backing = entry.definition.backing (.caller n)

/-- How a variable is wanted that has no pin. -/
def VariableEntry.wish {α : Type} (entry : VariableEntry α) : Option (Wish α) :=
  match entry.pin with
  | some _ => none
  | none => some ⟨entry.priority, entry.target⟩

/-- What a constraint asks of the solver. -/
def ConstraintEntry.wanted {α : Type} (entry : ConstraintEntry α) : Option (Constraint α) :=
  if entry.enabled then some entry.backing else none

omit [Scalar α] in
theorem ConstraintEntry.wanted_of_enabled {entry : ConstraintEntry α} (hon : entry.enabled = true) :
    entry.wanted = some entry.backing := if_pos hon

omit [Scalar α] in
theorem ConstraintEntry.wanted_of_disabled {entry : ConstraintEntry α}
    (hoff : entry.enabled = false) : entry.wanted = none := by
  unfold wanted
  rw [hoff, if_neg Bool.false_ne_true]

omit [Scalar α] in
theorem ConstraintEntry.wanted_iff {entry : ConstraintEntry α} {k : Constraint α} :
    entry.wanted = some k ↔ entry.enabled = true ∧ entry.backing = k := by
  cases hon : entry.enabled with
  | true => simp [wanted_of_enabled hon]
  | false => simp [wanted_of_disabled hon]

theorem VariableEntry.Fits.mono {labels labels' : Nat} {x : VariableId} {entry : VariableEntry α}
    (h : entry.Fits labels x) (hle : labels ≤ labels') : entry.Fits labels' x := by
  obtain ⟨n, hn, hpin⟩ := h
  exact ⟨n, Nat.lt_of_lt_of_le hn hle, hpin⟩

theorem ConstraintEntry.Fits.mono {labels labels' : Nat} {entry : ConstraintEntry α}
    (h : entry.Fits labels) (hle : labels ≤ labels') : entry.Fits labels' := by
  obtain ⟨n, hn, hbacking⟩ := h
  exact ⟨n, Nat.lt_of_lt_of_le hn hle, hbacking⟩

/-- A pin belongs to a required variable. -/
theorem VariableEntry.Fits.pin_eq_some {labels : Nat} {x : VariableId} {entry : VariableEntry α}
    {c : Constraint α} (h : entry.Fits labels x) (hc : entry.pin = some c) :
    entry.priority.isRequired = true ∧ ∃ n < labels, c = .pin (.caller n) x.backing entry.target := by
  obtain ⟨n, hn, hpin⟩ := h
  unfold pinFor at hpin
  rw [hc] at hpin
  split at hpin
  · next hreq => exact ⟨hreq, n, hn, Option.some.inj hpin⟩
  · cases hpin

theorem VariableEntry.Fits.pin_eq_none {labels : Nat} {x : VariableId} {entry : VariableEntry α}
    (h : entry.Fits labels x) (hc : entry.pin = none) : entry.priority.isRequired = false := by
  obtain ⟨n, hn, hpin⟩ := h
  unfold pinFor at hpin
  rw [hc] at hpin
  split at hpin
  · cases hpin
  · next hreq => simpa using hreq

/-! ## Demands -/

section Demands

variable {α : Type}

/-- What registered variables and constraints ask of a solver. -/
def demandOf (vars : VariableId → Option (VariableEntry α))
    (constraints : ConstraintId → Option (ConstraintEntry α)) : Demand α where
  constraints
    | .var x => (vars x).bind VariableEntry.pin
    | .constraint c => (constraints c).bind ConstraintEntry.wanted
  wishes x := (vars x).bind VariableEntry.wish

/-- The demand in which a variable is registered like this. -/
def Demand.withVariable (d : Demand α) (x : VariableId) (entry : Option (VariableEntry α)) : Demand α :=
  (d.withConstraint (.var x) (entry.bind VariableEntry.pin)).withWish x (entry.bind VariableEntry.wish)

theorem demandOf_update_var (vars : VariableId → Option (VariableEntry α))
    (constraints : ConstraintId → Option (ConstraintEntry α)) (x : VariableId)
    (entry : Option (VariableEntry α)) : demandOf (Function.update vars x entry) constraints
      = (demandOf vars constraints).withVariable x entry := by
  unfold demandOf Demand.withVariable Demand.withConstraint Demand.withWish
  congr 1
  · funext o
    cases o with
    | var y =>
      by_cases hyx : y = x
      · subst hyx
        simp
      · have hne : Owner.var y ≠ .var x := fun heq => hyx (Owner.var.inj heq)
        simp [hyx, hne]
    | constraint c => simp
  · funext y
    by_cases hyx : y = x
    · subst hyx
      simp
    · simp [hyx]

theorem demandOf_update_constraint (vars : VariableId → Option (VariableEntry α))
    (constraints : ConstraintId → Option (ConstraintEntry α)) (c : ConstraintId)
    (entry : Option (ConstraintEntry α)) : demandOf vars (Function.update constraints c entry)
      = (demandOf vars constraints).withConstraint (.constraint c)
          (entry.bind ConstraintEntry.wanted) := by
  unfold demandOf Demand.withConstraint
  congr 1
  funext o
  cases o with
  | var y => simp
  | constraint c' =>
    by_cases hcc : c' = c
    · subst hcc
      simp
    · have hne : Owner.constraint c' ≠ .constraint c := fun heq => hcc (Owner.constraint.inj heq)
      simp [hcc, hne]

theorem Demand.withVariable_none {d : Demand α} {x : VariableId}
    (entry : Option (VariableEntry α)) :
    (d.withVariable x none).withVariable x entry = d.withVariable x entry := by
  unfold withVariable withConstraint withWish
  simp

end Demands

/-! ## Registered -/

namespace Engine

variable {e e' : Engine α} {x : VariableId} {c : ConstraintId} {entry : VariableEntry α}

/-- The constraint that an owner states, be it in the solver or not. -/
def stated (e : Engine α) : Owner → Option (Constraint α)
  | .var x => (e.vars.entries.get? x).bind VariableEntry.pin
  | .constraint c => (e.constraints.entries.get? c).map ConstraintEntry.backing

/-- What the registries ask of the solver. -/
def demand (e : Engine α) : Demand α := demandOf e.vars.entries.get? e.constraints.entries.get?

/-- The registries fit together. -/
structure Registered (e : Engine α) : Prop where
  varsOwner : e.vars.owner = e.id
  constraintsOwner : e.constraints.owner = e.id
  vars : ∀ x entry, e.vars.entries.get? x = some entry →
    x.owner = e.id ∧ x.index < e.vars.next ∧ entry.Fits e.labels x
  constraints : ∀ c entry, e.constraints.entries.get? c = some entry →
    c.owner = e.id ∧ c.index < e.constraints.next ∧ entry.Fits e.labels
  mentioned : ∀ c entry x, e.constraints.entries.get? c = some entry →
    entry.definition.mentions x = true → ∃ known, e.vars.entries.get? x = some known
  apart : ∀ o o' c c', e.stated o = some c → e.stated o' = some c' → c.label = c'.label → o = o'

namespace Registered

theorem create (id : EngineId) (options : EngineOptions) :
    (Engine.create id options : Engine α).Registered where
  varsOwner := rfl
  constraintsOwner := rfl
  vars _ _ h := by cases h
  constraints _ _ h := by cases h
  mentioned _ _ _ h := by cases h
  apart o _ _ _ h := by cases o <;> cases h

/-- Issuing labels and handles. -/
theorem grow (h : e.Registered) (hid : e'.id = e.id) (hvars : e'.vars.owner = e.vars.owner)
    (hvarsNext : e.vars.next ≤ e'.vars.next) (hvarsEntries : e'.vars.entries = e.vars.entries)
    (hconstraints : e'.constraints.owner = e.constraints.owner)
    (hnext : e.constraints.next ≤ e'.constraints.next)
    (hentries : e'.constraints.entries = e.constraints.entries) (hlabels : e.labels ≤ e'.labels) :
    e'.Registered := by
  have hstated : e'.stated = e.stated := by
    funext o
    cases o with
    | var x => simp only [stated, hvarsEntries]
    | constraint c => simp only [stated, hentries]
  refine ⟨?_, ?_, ?_, ?_, ?_, ?_⟩
  · rw [hvars, hid]
    exact h.varsOwner
  · rw [hconstraints, hid]
    exact h.constraintsOwner
  · intro x entry hx
    rw [hvarsEntries] at hx
    obtain ⟨howner, hindex, hfits⟩ := h.vars x entry hx
    exact ⟨howner.trans hid.symm, Nat.lt_of_lt_of_le hindex hvarsNext, hfits.mono hlabels⟩
  · intro c entry hc
    rw [hentries] at hc
    obtain ⟨howner, hindex, hfits⟩ := h.constraints c entry hc
    exact ⟨howner.trans hid.symm, Nat.lt_of_lt_of_le hindex hnext, hfits.mono hlabels⟩
  · rw [hentries, hvarsEntries]
    exact h.mentioned
  · rw [hstated]
    exact h.apart

/-- Only the registries matter. -/
theorem congr (h : e.Registered) (hid : e'.id = e.id) (hvars : e'.vars = e.vars)
    (hconstraints : e'.constraints = e.constraints) (hlabels : e'.labels = e.labels) :
    e'.Registered :=
  h.grow hid (by rw [hvars]) (Nat.le_of_eq (by rw [hvars])) (by rw [hvars]) (by rw [hconstraints])
    (Nat.le_of_eq (by rw [hconstraints])) (by rw [hconstraints]) (Nat.le_of_eq hlabels.symm)

/-- Labels in use have been issued. -/
theorem label_lt (h : e.Registered) {o : Owner} {k : Constraint α} (ho : e.stated o = some k) :
    ∃ n < e.labels, k.label = .caller n := by
  cases o with
  | var x =>
    obtain ⟨entry, hentry, hpin⟩ := Option.bind_eq_some_iff.1 ho
    obtain ⟨-, n, hn, rfl⟩ := (h.vars x entry hentry).2.2.pin_eq_some hpin
    exact ⟨n, hn, rfl⟩
  | constraint c =>
    obtain ⟨entry, hentry, rfl⟩ := Option.map_eq_some_iff.1 ho
    obtain ⟨n, hn, hbacking⟩ := (h.constraints c entry hentry).2.2
    rw [hbacking]
    exact ⟨n, hn, rfl⟩

/-- The next label is not in use. -/
theorem label_ne (h : e.Registered) {o : Owner} {k : Constraint α} (ho : e.stated o = some k) :
    k.label ≠ .caller e.labels := by
  obtain ⟨n, hn, hlabel⟩ := h.label_lt ho
  rw [hlabel]
  intro heq
  rw [Label.caller.inj heq] at hn
  exact Nat.lt_irrefl _ hn

/-- Registered variables have different backings. -/
theorem backing_injective (h : e.Registered) {x x' : VariableId} {entry entry' : VariableEntry α}
    (hx : e.vars.entries.get? x = some entry) (hx' : e.vars.entries.get? x' = some entry')
    (hback : x.backing = x'.backing) : x = x' := by
  have howner := (h.vars x entry hx).1.trans (h.vars x' entry' hx').1.symm
  have hindex : x.index = x'.index := Variable.mk.inj hback
  cases x
  cases x'
  cases howner
  cases hindex
  rfl

/-- What the registries ask of a solver can be met. -/
theorem fit (h : e.Registered) : e.demand.Fit := by
  have hstated {o : Owner} {k : Constraint α} (ho : e.demand.constraints o = some k) :
      e.stated o = some k := by
    cases o with
    | var x => exact ho
    | constraint c =>
      obtain ⟨entry, hentry, hwanted⟩ := Option.bind_eq_some_iff.1 ho
      exact Option.map_eq_some_iff.2 ⟨entry, hentry, (ConstraintEntry.wanted_iff.1 hwanted).2⟩
  refine ⟨?_, ?_, ?_, ?_, ?_⟩
  · intro o k ho
    obtain ⟨n, -, hlabel⟩ := h.label_lt (hstated ho)
    exact ⟨n, hlabel⟩
  · intro o k ho
    have hk := hstated ho
    cases o with
    | var x =>
      obtain ⟨entry, hentry, hpin⟩ := Option.bind_eq_some_iff.1 hk
      obtain ⟨-, n, -, rfl⟩ := (h.vars x entry hentry).2.2.pin_eq_some hpin
      exact ⟨_, _, _, _, rfl⟩
    | constraint c =>
      obtain ⟨entry, hentry, rfl⟩ := Option.map_eq_some_iff.1 hk
      obtain ⟨n, -, hbacking⟩ := (h.constraints c entry hentry).2.2
      rw [hbacking]
      exact ⟨_, _, _, _, rfl⟩
  · intro o o' k k' ho ho'
    exact h.apart o o' k k' (hstated ho) (hstated ho')
  · intro x w hw
    obtain ⟨entry, hentry, hwish⟩ := Option.bind_eq_some_iff.1 hw
    unfold VariableEntry.wish at hwish
    split at hwish
    · cases hwish
    · next hpin =>
      cases hwish
      exact (h.vars x entry hentry).2.2.pin_eq_none hpin
  · intro x x' w w' hw hw' hback
    obtain ⟨entry, hentry, -⟩ := Option.bind_eq_some_iff.1 hw
    obtain ⟨entry', hentry', -⟩ := Option.bind_eq_some_iff.1 hw'
    exact h.backing_injective hentry hentry' hback

/-! ## Writes -/

theorem apart_update {α : Type} {f : Owner → Option (Constraint α)} {o : Owner} {new : Option (Constraint α)}
    (h : ∀ o o' k k', f o = some k → f o' = some k' → k.label = k'.label → o = o')
    (hnew : ∀ k, new = some k → ∀ o' k', o' ≠ o → f o' = some k' → k'.label ≠ k.label) :
    ∀ o₁ o₂ k k', Function.update f o new o₁ = some k → Function.update f o new o₂ = some k' →
      k.label = k'.label → o₁ = o₂ := by
  intro o₁ o₂ k k' hk hk' hlabel
  by_cases h₁ : o₁ = o
  · by_cases h₂ : o₂ = o
    · rw [h₁, h₂]
    · rw [h₁, Function.update_self] at hk
      rw [Function.update_of_ne h₂] at hk'
      exact absurd hlabel.symm (hnew k hk o₂ k' h₂ hk')
  · rw [Function.update_of_ne h₁] at hk
    by_cases h₂ : o₂ = o
    · rw [h₂, Function.update_self] at hk'
      exact absurd hlabel (hnew k' hk' o₁ k h₁ hk)
    · rw [Function.update_of_ne h₂] at hk'
      exact h o₁ o₂ k k' hk hk' hlabel

/-- The next handle is not in use. -/
theorem unissued_var (h : e.Registered) : e.vars.entries.get? e.vars.issue.1 = none := by
  cases hx : e.vars.entries.get? e.vars.issue.1 with
  | none => rfl
  | some entry => exact absurd (h.vars _ entry hx).2.1 (Nat.lt_irrefl _)

theorem unissued_constraint (h : e.Registered) :
    e.constraints.entries.get? e.constraints.issue.1 = none := by
  cases hc : e.constraints.entries.get? e.constraints.issue.1 with
  | none => rfl
  | some entry => exact absurd (h.constraints _ entry hc).2.1 (Nat.lt_irrefl _)

/-- Registering a variable, or taking it out. -/
theorem writeVar (h : e.Registered) (x : VariableId) (entry : Option (VariableEntry α))
    {entries : OrderedMap VariableId (VariableEntry α)}
    (hget : entries.get? = Function.update e.vars.entries.get? x entry)
    (hfits : ∀ v, entry = some v → x.owner = e.id ∧ x.index < e.vars.next ∧ v.Fits e.labels x)
    (hlabel : ∀ k, entry.bind VariableEntry.pin = some k →
      ∀ o k', o ≠ .var x → e.stated o = some k' → k'.label ≠ k.label)
    (hfree : entry = none → ∀ c d, e.constraints.entries.get? c = some d →
      d.definition.mentions x = false) :
    ({ e with vars := { e.vars with entries := entries } } : Engine α).Registered := by
  have hstated : ({ e with vars := { e.vars with entries := entries } } : Engine α).stated
      = Function.update e.stated (.var x) (entry.bind VariableEntry.pin) := by
    funext o
    cases o with
    | var y =>
      simp only [stated, hget]
      by_cases hyx : y = x
      · subst hyx
        simp
      · have hne : Owner.var y ≠ .var x := fun heq => hyx (Owner.var.inj heq)
        simp [hyx, hne, stated]
    | constraint c => simp [stated]
  refine { h with vars := ?_, mentioned := ?_, apart := ?_ }
  · intro y v hy
    rw [hget] at hy
    by_cases hyx : y = x
    · subst hyx
      rw [Function.update_self] at hy
      exact hfits v hy
    · rw [Function.update_of_ne hyx] at hy
      exact h.vars y v hy
  · intro c d y hc hmentions
    rw [hget]
    by_cases hyx : y = x
    · subst hyx
      rw [Function.update_self]
      cases hentry : entry with
      | none =>
        rw [hfree hentry c d hc] at hmentions
        cases hmentions
      | some v => exact ⟨v, rfl⟩
    · rw [Function.update_of_ne hyx]
      exact h.mentioned c d y hc hmentions
  · rw [hstated]
    exact apart_update h.apart hlabel

/-- Registering a constraint, or taking it out. -/
theorem writeConstraint (h : e.Registered) (c : ConstraintId) (entry : Option (ConstraintEntry α))
    {entries : OrderedMap ConstraintId (ConstraintEntry α)}
    (hget : entries.get? = Function.update e.constraints.entries.get? c entry)
    (hfits : ∀ d, entry = some d → c.owner = e.id ∧ c.index < e.constraints.next ∧ d.Fits e.labels)
    (hlabel : ∀ d, entry = some d →
      ∀ o k', o ≠ .constraint c → e.stated o = some k' → k'.label ≠ d.backing.label)
    (hmentioned : ∀ d y, entry = some d → d.definition.mentions y = true →
      ∃ known, e.vars.entries.get? y = some known) :
    ({ e with constraints := { e.constraints with entries := entries } } : Engine α).Registered := by
  have hstated : ({ e with constraints := { e.constraints with entries := entries } } : Engine α).stated
      = Function.update e.stated (.constraint c) (entry.map ConstraintEntry.backing) := by
    funext o
    cases o with
    | var y => simp [stated]
    | constraint c' =>
      simp only [stated, hget]
      by_cases hcc : c' = c
      · subst hcc
        simp
      · have hne : Owner.constraint c' ≠ .constraint c := fun heq => hcc (Owner.constraint.inj heq)
        simp [hcc, hne, stated]
  refine { h with constraints := ?_, mentioned := ?_, apart := ?_ }
  · intro c' d hc
    rw [hget] at hc
    by_cases hcc : c' = c
    · subst hcc
      rw [Function.update_self] at hc
      exact hfits d hc
    · rw [Function.update_of_ne hcc] at hc
      exact h.constraints c' d hc
  · intro c' d y hc hmentions
    rw [hget] at hc
    by_cases hcc : c' = c
    · subst hcc
      rw [Function.update_self] at hc
      exact hmentioned d y hc hmentions
    · rw [Function.update_of_ne hcc] at hc
      exact h.mentioned c' d y hc hmentions
  · rw [hstated]
    refine apart_update h.apart fun k hk o k' hne ho => ?_
    obtain ⟨d, hd, rfl⟩ := Option.map_eq_some_iff.1 hk
    exact hlabel d hd o k' hne ho

/-- Registering a variable whose pin has the next label. -/
theorem putVar (h : e.Registered) (x : VariableId) (entry : VariableEntry α)
    (howner : x.owner = e.id) (hindex : x.index < e.vars.next)
    (hpin : entry.pin = VariableEntry.pinFor (.caller e.labels) x entry.priority entry.target) :
    ({ e with vars := e.vars.put x entry, labels := e.labels + 1 } : Engine α).Registered := by
  have hgrown : ({ e with labels := e.labels + 1 } : Engine α).Registered :=
    h.grow rfl rfl (Nat.le_refl _) rfl rfl (Nat.le_refl _) rfl (Nat.le_succ _)
  refine hgrown.writeVar x (some entry) (e.vars.get?_put x entry) ?_ ?_ ?_
  · rintro v hv
    cases hv
    exact ⟨howner, hindex, e.labels, Nat.lt_succ_self _, hpin⟩
  · intro k hk o k' _ ho hlabel
    rw [Option.bind_some, hpin] at hk
    unfold VariableEntry.pinFor at hk
    split at hk
    · cases hk
      exact h.label_ne ho hlabel
    · cases hk
  · intro hnone
    cases hnone

/-- Registering a constraint whose backing has the next label. -/
theorem putConstraint (h : e.Registered) (c : ConstraintId) (entry : ConstraintEntry α)
    (howner : c.owner = e.id) (hindex : c.index < e.constraints.next)
    (hbacking : entry.backing = entry.definition.backing (.caller e.labels))
    (hmentioned : ∀ y, entry.definition.mentions y = true →
      ∃ known, e.vars.entries.get? y = some known) :
    ({ e with constraints := e.constraints.put c entry, labels := e.labels + 1 } : Engine α).Registered := by
  have hgrown : ({ e with labels := e.labels + 1 } : Engine α).Registered :=
    h.grow rfl rfl (Nat.le_refl _) rfl rfl (Nat.le_refl _) rfl (Nat.le_succ _)
  refine hgrown.writeConstraint c (some entry) (e.constraints.get?_put c entry) ?_ ?_ ?_
  · rintro d hd
    cases hd
    exact ⟨howner, hindex, e.labels, Nat.lt_succ_self _, hbacking⟩
  · rintro d hd o k' _ ho hlabel
    cases hd
    rw [hbacking] at hlabel
    exact h.label_ne ho hlabel
  · rintro d y hd
    cases hd
    exact hmentioned y

end Registered

/-! ## Demands after a write -/

section Demands

variable {α : Type} {e e' : Engine α}

theorem demand_writeVar (x : VariableId) (entry : Option (VariableEntry α))
    (hget : e'.vars.entries.get? = Function.update e.vars.entries.get? x entry)
    (hconstraints : e'.constraints.entries = e.constraints.entries) :
    e'.demand = e.demand.withVariable x entry := by
  unfold demand
  rw [hget, hconstraints]
  exact demandOf_update_var _ _ x entry

theorem demand_writeConstraint (c : ConstraintId) (entry : Option (ConstraintEntry α))
    (hvars : e'.vars.entries = e.vars.entries)
    (hget : e'.constraints.entries.get? = Function.update e.constraints.entries.get? c entry) :
    e'.demand = e.demand.withConstraint (.constraint c) (entry.bind ConstraintEntry.wanted) := by
  unfold demand
  rw [hget, hvars]
  exact demandOf_update_constraint _ _ c entry

theorem demand_var {entry : Option (VariableEntry α)} (hx : e.vars.entries.get? x = entry) :
    e.demand.constraints (.var x) = entry.bind VariableEntry.pin ∧
      e.demand.wishes x = entry.bind VariableEntry.wish := by
  simp [demand, demandOf, hx]

theorem demand_constraint {entry : Option (ConstraintEntry α)}
    (hc : e.constraints.entries.get? c = entry) :
    e.demand.constraints (.constraint c) = entry.bind ConstraintEntry.wanted := by
  simp [demand, demandOf, hc]

theorem demand_enabled {c : ConstraintId} {entry : ConstraintEntry α}
    (hc : e.constraints.entries.get? c = some entry) (hon : entry.enabled = true) :
    e.demand.constraints (.constraint c) = some entry.backing :=
  (demand_constraint hc).trans (entry.wanted_of_enabled hon)

/-- What a constraint asks of the solver. -/
theorem demand_constraint_iff {c : ConstraintId} {k : Constraint α} :
    e.demand.constraints (.constraint c) = some k ↔
      ∃ entry, e.constraints.entries.get? c = some entry ∧ entry.enabled = true ∧ entry.backing = k := by
  refine Option.bind_eq_some_iff.trans (exists_congr fun entry => and_congr_right fun _ => ?_)
  exact ConstraintEntry.wanted_iff

theorem demand_disabled {c : ConstraintId} {entry : ConstraintEntry α}
    (hc : e.constraints.entries.get? c = some entry) (hoff : entry.enabled = false) :
    e.demand.constraints (.constraint c) = none :=
  (demand_constraint hc).trans (entry.wanted_of_disabled hoff)

end Demands

end Engine

end BoxLayout
