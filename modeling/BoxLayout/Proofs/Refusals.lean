-- SUMMARY: An engine refuses a call for exactly the first handle out of order, or a variable in use, and then changes nothing.
import BoxLayout.Proofs.Commands

/-!
# Refusals

Whether a call is refused, and why, depends on its handles alone: the first of them that the
engine does not know decides. The one other refusal is that of a variable which a stored
constraint still mentions; the first such constraint is named.

That nothing is refused half way holds in every state that an engine can reach, whatever
the numbers are: stored definitions mention registered variables only.
-/

namespace BoxLayout.Engine

/-! ## Constraints are kept in the order of issue -/

section

variable {α : Type} [Scalar α] {e : Engine α} {x : VariableId} {c : ConstraintId}

/-- The registered constraints stand in the order in which their handles were issued. -/
def InOrder (e : Engine α) : Prop :=
  e.constraints.handles.Pairwise fun c c' => c.index < c'.index

theorem InOrder.record (h : e.InOrder) (hreg : e.Registered) {w : Write α} (hw : w.Proper e) :
    (w.record e).InOrder := by
  cases w with
  | want x p target => exact h
  | move x target =>
    obtain ⟨old, hx, -⟩ := hw
    rw [Write.record_move hx]
    exact h
  | forget x => exact h
  | state c d enabled =>
    rcases hw.1 with rfl | ⟨old, hc, -⟩
    · exact Registry.Ascending.enroll_issued h fun c entry hc => (hreg.constraints c entry hc).2.1
    · rw [Write.record_state, Registry.enroll_known (hreg.constraints c old hc).2.1]
      exact Registry.Ascending.put h hc
  | switch c enabled =>
    obtain ⟨old, hc, -⟩ := hw
    rw [Write.record_switch hc]
    exact Registry.Ascending.put h hc
  | retract c => exact Registry.Ascending.strike h

theorem inOrder_kept : Kept fun e : Engine α => e.InOrder where
  write e w hreg h hw := by
    unfold InOrder
    rw [write_constraints]
    exact h.record hreg hw
  markChanged _ h := h
  refresh e hreg h := by
    have hconstraints : e.refresh.constraints = e.constraints := by
      unfold Engine.refresh
      obtain ⟨-, hread⟩ | ⟨s, -, -, hread⟩ := e.ensureLive.readValues_cases
      · rw [hread, e.ensureLive_registries.2.2.1]
      · rw [hread]
        exact e.ensureLive_registries.2.2.1
    unfold InOrder
    rw [hconstraints]
    exact h
  note _ _ _ h := h

/-! ## Variables in use -/

/-- The constraint mentions the variable, and was created before all others that do. -/
structure FirstInUse (e : Engine α) (x : VariableId) (c : ConstraintId) : Prop where
  mentions : ∃ entry, e.constraints.entries.get? c = some entry ∧ entry.definition.mentions x = true
  first : ∀ c' entry, e.constraints.entries.get? c' = some entry →
    entry.definition.mentions x = true → c.index ≤ c'.index

omit [Scalar α] in
theorem mem_referencing : c ∈ e.constraints.referencing x ↔
    ∃ entry, e.constraints.entries.get? c = some entry ∧ entry.definition.mentions x = true := by
  unfold Registry.referencing
  rw [List.mem_map]
  constructor
  · rintro ⟨k, hk, rfl⟩
    obtain ⟨hmem, hmentions⟩ := List.mem_filter.1 hk
    exact ⟨k.2, OrderedMap.mem_entries_iff.1 hmem, hmentions⟩
  · rintro ⟨entry, hc, hmentions⟩
    exact ⟨(c, entry), List.mem_filter.2 ⟨OrderedMap.mem_entries_iff.2 hc, hmentions⟩, rfl⟩

omit [Scalar α] in
/-- The constraint that is named stands first in the order of creation. -/
theorem InOrder.head?_referencing (h : e.InOrder) :
    (e.constraints.referencing x).head? = some c ↔ e.FirstInUse x c := by
  have hsorted : (e.constraints.referencing x).Pairwise fun c c' => c.index < c'.index :=
    h.sublist (List.filter_sublist.map Prod.fst)
  constructor
  · intro hhead
    obtain ⟨rest, hlist⟩ := List.head?_eq_some_iff.1 hhead
    refine ⟨mem_referencing.1 (by rw [hlist]; exact List.mem_cons_self), fun c' entry hc' hm => ?_⟩
    have hmem := mem_referencing.2 ⟨entry, hc', hm⟩
    rw [hlist] at hmem hsorted
    obtain rfl | hmem := List.mem_cons.1 hmem
    · exact Nat.le_refl _
    · exact Nat.le_of_lt (List.rel_of_pairwise_cons hsorted hmem)
  · intro hfirst
    have hmem := mem_referencing.2 hfirst.mentions
    cases hlist : e.constraints.referencing x with
    | nil =>
      rw [hlist] at hmem
      cases hmem
    | cons c₀ rest =>
      rw [hlist] at hmem hsorted
      obtain rfl | hmem := List.mem_cons.1 hmem
      · rfl
      · -- the head was created earlier, and mentions the variable as well
        have hlt := List.rel_of_pairwise_cons hsorted hmem
        obtain ⟨entry, hc₀, hm⟩ := mem_referencing.1
          (show c₀ ∈ e.constraints.referencing x by rw [hlist]; exact List.mem_cons_self)
        exact absurd (hfirst.first c₀ entry hc₀ hm) (Nat.not_le.2 hlt)

end

/-! ## Handles out of order -/

section

variable {α : Type} {e : Engine α}

/-- The engine has issued the handle, and something is registered under it. -/
def Knows (e : Engine α) (g : AnyHandle) : Prop := g.2.owner = e.id ∧ e.registers g = true

instance (e : Engine α) (g : AnyHandle) : Decidable (e.Knows g) :=
  inferInstanceAs (Decidable (_ ∧ _))

/-- The first handle in a call that the engine does not know. -/
def stranger (e : Engine α) (c : Command α) : Option AnyHandle := c.handles.find? fun g => ¬e.Knows g

theorem fault_eq_none_iff {g : AnyHandle} : e.fault g = none ↔ e.Knows g := by
  unfold fault Knows
  by_cases howner : g.2.owner = e.id
  · rw [if_pos howner]
    cases e.registers g <;> simp [howner]
  · rw [if_neg howner]
    simp [howner]

/-- What is wrong with a handle that the engine does not know. -/
theorem fault_of_not_knows {g : AnyHandle} (hg : ¬e.Knows g) : e.fault g
    = if g.2.owner = e.id then some (.unknown g.1 g.2) else some (.foreign g.1 g.2 e.id) := by
  unfold fault
  by_cases howner : g.2.owner = e.id
  · have hnot : e.registers g = false := Bool.eq_false_iff.2 fun hreg => hg ⟨howner, hreg⟩
    rw [if_pos howner, if_pos howner, hnot]
  · rw [if_neg howner, if_neg howner]

/-- The first stranger decides what is found wrong with the handles of a call. -/
theorem findSome?_fault (c : Command α) :
    c.handles.findSome? e.fault = (e.stranger c).bind e.fault := by
  unfold stranger
  induction c.handles with
  | nil => rfl
  | cons g gs ih =>
    rw [List.findSome?_cons, List.find?_cons]
    by_cases hg : e.Knows g
    · rw [fault_eq_none_iff.2 hg, decide_eq_false (not_not.2 hg)]
      exact ih
    · obtain ⟨err, herr⟩ := Option.ne_none_iff_exists'.1 (mt fault_eq_none_iff.1 hg)
      rw [herr, decide_eq_true hg]
      exact herr.symm

theorem refusal_of_stranger {c : Command α} {g : AnyHandle} (hg : e.stranger c = some g) :
    c.refusal e = if g.2.owner = e.id then some (.unknown g.1 g.2) else some (.foreign g.1 g.2 e.id) := by
  have hnot : ¬e.Knows g := by simpa using List.find?_some hg
  have hfault := findSome?_fault (e := e) c
  rw [hg, Option.bind_some] at hfault
  obtain ⟨err, herr⟩ := Option.ne_none_iff_exists'.1 (mt fault_eq_none_iff.1 hnot)
  rw [Command.refusal_of_fault (hfault.trans herr), ← herr, fault_of_not_knows hnot]

theorem refusal_of_no_stranger {c : Command α} (hnone : e.stranger c = none) :
    c.refusal e = c.hindrance e :=
  Command.refusal_of_known (by rw [findSome?_fault, hnone, Option.bind_none])

/-- Only a variable that is to be removed can be in use. -/
theorem hindrance_eq_some_iff {c : Command α} {err : EngineError} : c.hindrance e = some err ↔
    ∃ x k, c = .removeVariable x ∧ (e.constraints.referencing x).head? = some k ∧
      err = .variableInUse x k := by
  constructor
  · intro h
    cases c with
    | removeVariable x =>
      obtain ⟨k, hk, rfl⟩ := Option.map_eq_some_iff.1 h
      exact ⟨x, k, rfl, hk, rfl⟩
    | _ => cases h
  · rintro ⟨x, k, rfl, hk, rfl⟩
    exact Option.map_eq_some_iff.2 ⟨k, hk, rfl⟩

theorem stranger_removeVariable (x : VariableId) :
    e.stranger (.removeVariable x) = none ↔ e.Knows ⟨.var, x⟩ := by
  unfold stranger Command.handles
  rw [List.find?_eq_none]
  simp

variable {c : Command α}

theorem refusal_foreign_iff {kind : HandleKind} {h : Handle kind} {engine : EngineId} :
    c.refusal e = some (.foreign kind h engine) ↔
      e.stranger c = some ⟨kind, h⟩ ∧ h.owner ≠ e.id ∧ engine = e.id := by
  cases hstranger : e.stranger c with
  | none =>
    rw [refusal_of_no_stranger hstranger, hindrance_eq_some_iff]
    refine ⟨?_, fun h => nomatch h.1⟩
    rintro ⟨x, k, -, -, heq⟩
    cases heq
  | some g =>
    rw [refusal_of_stranger hstranger]
    by_cases howner : g.2.owner = e.id
    · rw [if_pos howner]
      refine ⟨fun heq => (by cases heq), ?_⟩
      rintro ⟨heq, hne, -⟩
      cases heq
      exact absurd howner hne
    · rw [if_neg howner]
      constructor
      · intro heq
        cases heq
        exact ⟨rfl, howner, rfl⟩
      · rintro ⟨heq, -, rfl⟩
        cases heq
        rfl

theorem refusal_unknown_iff {kind : HandleKind} {h : Handle kind} :
    c.refusal e = some (.unknown kind h) ↔ e.stranger c = some ⟨kind, h⟩ ∧ h.owner = e.id := by
  cases hstranger : e.stranger c with
  | none =>
    rw [refusal_of_no_stranger hstranger, hindrance_eq_some_iff]
    refine ⟨?_, fun h => nomatch h.1⟩
    rintro ⟨x, k, -, -, heq⟩
    cases heq
  | some g =>
    rw [refusal_of_stranger hstranger]
    by_cases howner : g.2.owner = e.id
    · rw [if_pos howner]
      constructor
      · intro heq
        cases heq
        exact ⟨rfl, howner⟩
      · rintro ⟨heq, -⟩
        cases heq
        rfl
    · rw [if_neg howner]
      refine ⟨fun heq => (by cases heq), ?_⟩
      rintro ⟨heq, hsame⟩
      cases heq
      exact absurd hsame howner

theorem InOrder.refusal_inUse_iff (horder : e.InOrder) {x : VariableId} {k : ConstraintId} :
    c.refusal e = some (.variableInUse x k) ↔
      c = .removeVariable x ∧ e.Knows ⟨.var, x⟩ ∧ e.FirstInUse x k := by
  rw [← horder.head?_referencing]
  cases hstranger : e.stranger c with
  | none =>
    rw [refusal_of_no_stranger hstranger, hindrance_eq_some_iff]
    constructor
    · rintro ⟨x', k', rfl, hk, heq⟩
      cases heq
      exact ⟨rfl, (stranger_removeVariable x).1 hstranger, hk⟩
    · rintro ⟨rfl, -, hk⟩
      exact ⟨x, k, rfl, hk, rfl⟩
  | some g =>
    rw [refusal_of_stranger hstranger]
    constructor
    · intro heq
      split at heq <;> cases heq
    · rintro ⟨rfl, hknows, -⟩
      rw [(stranger_removeVariable x).2 hknows] at hstranger
      cases hstranger

theorem refusal_none_iff : c.refusal e = none ↔ e.stranger c = none ∧
    ∀ x, c = .removeVariable x → ∀ k entry, e.constraints.entries.get? k = some entry →
      entry.definition.mentions x = false := by
  cases hstranger : e.stranger c with
  | some g =>
    rw [refusal_of_stranger hstranger]
    constructor
    · intro heq
      split at heq <;> cases heq
    · rintro ⟨heq, -⟩
      cases heq
  | none =>
    rw [refusal_of_no_stranger hstranger, Option.eq_none_iff_forall_ne_some]
    constructor
    · intro hnone
      refine ⟨rfl, ?_⟩
      rintro x rfl
      refine not_mentions (Option.eq_none_iff_forall_ne_some.2 fun k hk => ?_)
      exact hnone _ (hindrance_eq_some_iff.2 ⟨x, k, rfl, hk, rfl⟩)
    · rintro ⟨-, hfree⟩ err herr
      obtain ⟨x, k, rfl, hk, -⟩ := hindrance_eq_some_iff.1 herr
      obtain ⟨entry, hget, hm⟩ := mem_referencing.1 (List.mem_of_mem_head? hk)
      rw [hfree x rfl k entry hget] at hm
      cases hm

end

section

variable {α : Type} [Scalar α] {e : Engine α} {c : Command α}

/-- An answer that is an error is the refusal. -/
theorem Registered.perform_error_iff (h : e.Registered) {err : EngineError} :
    (c.perform e).1 = .error err ↔ c.refusal e = some err := by
  obtain ⟨err', hrefusal, hperform⟩ | ⟨hrefusal, hperform, -⟩ := h.perform_cases c
  · rw [hperform, hrefusal]
    exact ⟨fun heq => congrArg some (Except.error.inj heq), fun heq => congrArg _ (Option.some.inj heq)⟩
  · rw [hperform, hrefusal]
    constructor <;> intro heq <;> cases heq

theorem Registered.perform_ok_iff (h : e.Registered) :
    (∃ reply, (c.perform e).1 = .ok reply) ↔ c.refusal e = none := by
  obtain ⟨err, hrefusal, hperform⟩ | ⟨hrefusal, hperform, -⟩ := h.perform_cases c
  · rw [hperform, hrefusal]
    constructor
    · rintro ⟨_, heq⟩
      cases heq
    · intro heq
      cases heq
  · rw [hperform, hrefusal]
    exact ⟨fun _ => rfl, fun _ => ⟨_, rfl⟩⟩

end

variable {α : Type} [Scalar α]

/-- After every history of an engine, whatever the numbers are, a call is refused exactly as
follows. The first of its handles that the engine does not know is foreign if another engine
has issued it, and unknown otherwise. A variable that is known but in use is not removed, and
the earliest constraint that mentions it is named. Every other call succeeds. A call that is
refused leaves the engine as it was. -/
theorem refused_exactly (id : EngineId) (options : EngineOptions) (history : List (Command α))
    (command : Command α) :
    let e := (Engine.create id options).after history
    (∀ kind (h : Handle kind) engine, (command.perform e).1 = .error (.foreign kind h engine) ↔
      e.stranger command = some ⟨kind, h⟩ ∧ h.owner ≠ e.id ∧ engine = e.id) ∧
    (∀ kind (h : Handle kind), (command.perform e).1 = .error (.unknown kind h) ↔
      e.stranger command = some ⟨kind, h⟩ ∧ h.owner = e.id) ∧
    (∀ x c, (command.perform e).1 = .error (.variableInUse x c) ↔
      command = .removeVariable x ∧ e.Knows ⟨.var, x⟩ ∧ e.FirstInUse x c) ∧
    ((∃ reply, (command.perform e).1 = .ok reply) ↔ e.stranger command = none ∧
      ∀ x, command = .removeVariable x → ∀ c entry, e.constraints.entries.get? c = some entry →
        entry.definition.mentions x = false) ∧
    ∀ err, (command.perform e).1 = .error err → (command.perform e).2 = e := by
  intro e
  obtain ⟨hreg, horder⟩ : e.Registered ∧ e.InOrder :=
    inOrder_kept.after (.create id options) List.Pairwise.nil history
  refine ⟨fun kind h engine => ?_, fun kind h => ?_, fun x c => ?_, ?_, fun err herr => ?_⟩
  · exact hreg.perform_error_iff.trans refusal_foreign_iff
  · exact hreg.perform_error_iff.trans refusal_unknown_iff
  · exact hreg.perform_error_iff.trans horder.refusal_inUse_iff
  · exact hreg.perform_ok_iff.trans refusal_none_iff
  · obtain ⟨err', -, hperform⟩ | ⟨-, hperform, -⟩ := hreg.perform_cases command
    · rw [hperform]
    · rw [hperform] at herr
      cases herr

end BoxLayout.Engine
