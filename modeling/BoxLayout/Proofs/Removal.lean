-- SUMMARY: Removing an element succeeds, and takes out its variables and what mentions them, and nothing else.
import BoxLayout.Proofs.Elements
import BoxLayout.Scalar.Exact

/-!
# Removing an element

The variables of an element cannot go before every constraint that mentions one of them, which
may be a constraint of the layer or one that was made past it, and may mention several of them or
other elements too. What mentions a variable is looked up only when its turn comes. So nothing is
released twice, and in the end nothing is missed.
-/

namespace BoxLayout

open Attempt

/-! ## Removing from an engine -/

namespace Engine

variable {α : Type} [Scalar α] {e : Engine α} {x : VariableId} {c : ConstraintId}

/-- The constraints that mention one of some variables, in the order of issue. -/
def mentioning (e : Engine α) (xs : List VariableId) : List ConstraintId :=
  (e.constraints.entries.entries.filter fun k => xs.any k.2.definition.mentions).map Prod.fst

omit [Scalar α] in
theorem mem_mentioning {xs : List VariableId} : c ∈ e.mentioning xs ↔
    ∃ entry, e.constraints.entries.get? c = some entry ∧
      ∃ x ∈ xs, entry.definition.mentions x = true := by
  unfold mentioning
  simp only [List.mem_map, List.mem_filter, List.any_eq_true]
  constructor
  · rintro ⟨⟨c, entry⟩, ⟨hmem, hmentions⟩, rfl⟩
    exact ⟨entry, OrderedMap.mem_entries_iff.1 hmem, hmentions⟩
  · rintro ⟨entry, hc, hmentions⟩
    exact ⟨(c, entry), ⟨OrderedMap.mem_entries_iff.2 hc, hmentions⟩, rfl⟩

theorem Registered.removeConstraint_known (h : e.Registered) {entry : ConstraintEntry α}
    (hc : e.constraints.entries.get? c = some entry) : ∃ e', removeConstraint c e = .ok () e' ∧
      e'.Registered ∧ e'.id = e.id ∧ e'.vars = e.vars ∧ e'.constraints = e.constraints.strike c := by
  have hperforms := h.removeConstraint_performs c
  have hrefusal : (Command.removeConstraint c).refusal e = none := by
    refine Command.refusal_of_known ((List.findSome?_singleton ..).trans ?_)
    simp [fault, registers, OrderedMap.contains, (h.constraints c entry hc).1, hc]
  unfold Performs at hperforms
  rw [hrefusal] at hperforms
  obtain ⟨hrun, hproper, -⟩ := hperforms
  exact ⟨_, hrun, (h.write hproper).markChanged, write_id _ _, write_vars _ _, write_constraints _ _⟩

/-- A variable that no constraint mentions can be removed. -/
theorem Registered.removeVariable_free (h : e.Registered) {entry : VariableEntry α}
    (hx : e.vars.entries.get? x = some entry)
    (hfree : ∀ c entry, e.constraints.entries.get? c = some entry →
      entry.definition.mentions x = false) : ∃ e', removeVariable x e = .ok () e' ∧
      e'.Registered ∧ e'.id = e.id ∧ e'.vars = e.vars.strike x ∧ e'.constraints = e.constraints ∧
      e'.dirty = true := by
  have hperforms := h.removeVariable_performs x
  have hnone : e.constraints.referencing x = [] := by
    refine List.eq_nil_iff_forall_not_mem.2 fun c hc => ?_
    obtain ⟨entry, hc, hmentions⟩ := mem_referencing.1 hc
    rw [hfree c entry hc] at hmentions
    cases hmentions
  have hrefusal : (Command.removeVariable x).refusal e = none := by
    refine (Command.refusal_of_known ((List.findSome?_singleton ..).trans (h.fault_known hx))).trans ?_
    simp [Command.hindrance, hnone]
  unfold Performs at hperforms
  rw [hrefusal] at hperforms
  obtain ⟨hrun, hproper, -⟩ := hperforms
  exact ⟨_, hrun, (h.write hproper).markChanged, write_id _ _, write_vars _ _, write_constraints _ _, rfl⟩

end Engine

namespace Layer

variable {α : Type} [Scalar α] {l l' l'' : Layer α} {id : ElementId} {vars : Box VariableId}
  {cs cs' : List ConstraintId} {xs : List VariableId}

/-! ## Releasing constraints -/

/-- The layer has lost some constraints, for itself and for its engine. -/
structure Lost (l l' : Layer α) (cs : List ConstraintId) : Prop where
  registered : l'.engine.Registered
  id : l'.engine.id = l.engine.id
  vars : l'.engine.vars = l.engine.vars
  constraints : l'.engine.constraints.entries.entries
    = l.engine.constraints.entries.entries.filter fun k => k.1 ∉ cs
  tracked : l'.constraints.entries = l.constraints.entries.filter fun k => k.1 ∉ cs
  rest : { l' with engine := l.engine, constraints := l.constraints } = l

omit [Scalar α] in
theorem filter_notMem_append {κ β : Type} [DecidableEq κ] (es : List (κ × β)) (ks ks' : List κ) :
    (es.filter fun k => k.1 ∉ ks).filter (fun k => k.1 ∉ ks')
      = es.filter fun k => k.1 ∉ ks ++ ks' := by
  rw [List.filter_filter]
  refine List.filter_congr fun k _ => ?_
  simp [Bool.and_comm]

theorem Lost.refl (h : l.engine.Registered) : l.Lost l [] :=
  ⟨h, rfl, rfl, by simp, by simp, rfl⟩

theorem Lost.trans (h : l.Lost l' cs) (h' : l'.Lost l'' cs') : l.Lost l'' (cs ++ cs') where
  registered := h'.registered
  id := h'.id.trans h.id
  vars := h'.vars.trans h.vars
  constraints := by rw [h'.constraints, h.constraints, filter_notMem_append]
  tracked := by rw [h'.tracked, h.tracked, filter_notMem_append]
  rest := by
    have hrest := congrArg (fun k : Layer α =>
      { k with engine := l.engine, constraints := l.constraints }) h'.rest
    exact hrest.trans h.rest

/-- The constraints that are left are those that were not lost. -/
theorem Lost.get?_eq_some (h : l.Lost l' cs) {c : ConstraintId} {entry : ConstraintEntry α} :
    l'.engine.constraints.entries.get? c = some entry ↔
      l.engine.constraints.entries.get? c = some entry ∧ c ∉ cs := by
  rw [← OrderedMap.mem_entries_iff, h.constraints, List.mem_filter, OrderedMap.mem_entries_iff,
    decide_eq_true_iff]

/-- A constraint that is registered can be released. -/
theorem release_ensures (h : l.engine.Registered) {c : ConstraintId} {entry : ConstraintEntry α}
    (hc : l.engine.constraints.entries.get? c = some entry) :
    (Layer.release c).Ensures l (fun _ l' => l.Lost l' [c]) (fun _ _ => False) := by
  obtain ⟨e', hrun, hregistered, hid, hvars, hconstraints⟩ := h.removeConstraint_known hc
  refine ensures_modify_bind (ensures_mapError (ensures_onPart ?_))
  have hlost : l.Lost { forget c l with engine := e' } [c] := by
    refine ⟨hregistered, hid, hvars, ?_, ?_, rfl⟩
    · change e'.constraints.entries.entries = _
      rw [hconstraints]
      change Entries.dropKey c _ = _
      simp [Entries.dropKey]
    · change Entries.dropKey c _ = _
      simp [Entries.dropKey]
  unfold Ensures
  rw [show Engine.removeConstraint c (forget c l).engine = .ok () e' from hrun]
  exact hlost

/-- Registered constraints can be released one after the other. -/
theorem releases_ensures (h : l.engine.Registered) (hnodup : cs.Nodup)
    (hcs : ∀ c ∈ cs, ∃ entry, l.engine.constraints.entries.get? c = some entry) :
    (cs.forM release).Ensures l (fun _ l' => l.Lost l' cs) (fun _ _ => False) := by
  refine ensures_forM (I := fun done l' => l.Lost l' done) ?_ (.refl h)
  rintro done c todo l' rfl hlost
  obtain ⟨entry, hc⟩ := hcs c (by simp)
  have hlater : c ∉ done := fun hmem =>
    (List.nodup_append.1 hnodup).2.2 c hmem c List.mem_cons_self rfl
  exact (release_ensures hlost.registered (hlost.get?_eq_some.2 ⟨hc, hlater⟩)).mono
    (fun _ _ hnext => hlost.trans hnext) fun _ _ hfalse => hfalse

/-- Everything that mentions some variables is released, whatever else it mentions. -/
theorem releaseAll_ensures (h : l.engine.Registered)
    (hxs : ∀ x ∈ xs, ∃ entry, l.engine.vars.entries.get? x = some entry) :
    Ensures (xs.forM fun x => do
        let mentioning ← onEngine (do ofExcept ((← get).referencing x))
        mentioning.forM release : Attempt LayerError (Layer α) PUnit) l
      (fun _ l' => ∃ cs, l.Lost l' cs ∧ ∀ c, c ∈ cs ↔ c ∈ l.engine.mentioning xs)
      (fun _ _ => False) := by
  refine ensures_forM (I := fun done l' => ∃ cs, l.Lost l' cs ∧
    ∀ c, c ∈ cs ↔ c ∈ l.engine.mentioning done) ?_ ⟨[], .refl h, by simp [Engine.mem_mentioning]⟩
  rintro done x todo l' hsplit ⟨cs, hlost, hcs⟩
  obtain ⟨entry, hx⟩ := hxs x (by simp [hsplit])
  have hknown : l'.engine.referencing x = .ok (l'.engine.constraints.referencing x) := by
    unfold Engine.referencing
    rw [hlost.vars, Registry.lookup_of_get? ((h.vars x entry hx).1.trans h.varsOwner.symm) hx]
    rfl
  have hnodup : (l'.engine.constraints.referencing x).Nodup :=
    l'.engine.constraints.entries.nodup.sublist (List.filter_sublist.map Prod.fst)
  refine ensures_bind (ensures_mapError (ensures_onPart (ensures_get_bind ?_)))
  rw [hknown]
  refine ensures_pure ((releases_ensures (l := l') hlost.registered hnodup ?_).mono ?_
    fun _ _ hfalse => hfalse)
  · intro c hc
    obtain ⟨entry, hc, -⟩ := Engine.mem_referencing.1 hc
    exact ⟨entry, hc⟩
  · intro _ l'' hlost'
    refine ⟨_, hlost.trans hlost', fun c => ?_⟩
    rw [List.mem_append, Engine.mem_referencing, Engine.mem_mentioning]
    constructor
    · rintro (hc | ⟨entry, hc, hmentions⟩)
      · obtain ⟨entry, hc, y, hy, hmentions⟩ := Engine.mem_mentioning.1 ((hcs c).1 hc)
        exact ⟨entry, hc, y, List.mem_append_left _ hy, hmentions⟩
      · exact ⟨entry, (hlost.get?_eq_some.1 hc).1, x, by simp, hmentions⟩
    · rintro ⟨entry, hc, y, hy, hmentions⟩
      by_cases hdone : c ∈ cs
      · exact .inl hdone
      · refine .inr ⟨entry, hlost.get?_eq_some.2 ⟨hc, hdone⟩, ?_⟩
        rcases List.mem_append.1 hy with hy | hy
        · exact absurd ((hcs c).2 (Engine.mem_mentioning.2 ⟨entry, hc, y, hy, hmentions⟩)) hdone
        · rwa [← List.mem_singleton.1 hy]

/-! ## Removing variables -/

/-- The engine of the layer has lost some variables. -/
structure Vacated (l l' : Layer α) (xs : List VariableId) : Prop where
  registered : l'.engine.Registered
  id : l'.engine.id = l.engine.id
  vars : l'.engine.vars.entries.entries = l.engine.vars.entries.entries.filter fun k => k.1 ∉ xs
  constraints : l'.engine.constraints = l.engine.constraints
  dirty : xs ≠ [] → l'.engine.dirty = true
  rest : { l' with engine := l.engine } = l

/-- Registered variables that no constraint mentions can be removed one after the other. -/
theorem removeVariables_ensures (h : l.engine.Registered) (hnodup : xs.Nodup)
    (hxs : ∀ x ∈ xs, ∃ entry, l.engine.vars.entries.get? x = some entry)
    (hfree : ∀ x ∈ xs, ∀ c entry, l.engine.constraints.entries.get? c = some entry →
      entry.definition.mentions x = false) :
    Ensures (xs.forM fun x => onEngine (Engine.removeVariable x) :
        Attempt LayerError (Layer α) PUnit) l
      (fun _ l' => l.Vacated l' xs) (fun _ _ => False) := by
  refine ensures_forM (I := fun done l' => l.Vacated l' done) ?_
    ⟨h, rfl, by simp, rfl, fun hne => absurd rfl hne, rfl⟩
  rintro done x todo l' rfl hvacated
  obtain ⟨entry, hx⟩ := hxs x (by simp)
  have hlater : x ∉ done := fun hmem =>
    (List.nodup_append.1 hnodup).2.2 x hmem x List.mem_cons_self rfl
  have hx' : l'.engine.vars.entries.get? x = some entry := by
    rw [← OrderedMap.mem_entries_iff, hvacated.vars, List.mem_filter, OrderedMap.mem_entries_iff]
    exact ⟨hx, decide_eq_true hlater⟩
  have hfree' : ∀ c entry, l'.engine.constraints.entries.get? c = some entry →
      entry.definition.mentions x = false := by
    rw [hvacated.constraints]
    exact hfree x (by simp)
  obtain ⟨e', hrun, hregistered, hid, hvars, hconstraints, hdirty⟩ :=
    hvacated.registered.removeVariable_free hx' hfree'
  refine ensures_mapError (ensures_onPart ?_)
  unfold Ensures
  rw [hrun]
  refine ⟨hregistered, hid.trans hvacated.id, ?_, hconstraints.trans hvacated.constraints,
    fun _ => hdirty, hvacated.rest⟩
  change e'.vars.entries.entries = _
  rw [hvars]
  change Entries.dropKey x _ = _
  rw [hvacated.vars, ← filter_notMem_append]
  simp [Entries.dropKey]

/-! ## Removing elements -/

/-- An element has been taken out with its variables and with what mentions one of them. All
else stands where it stood. -/
structure ElementRemoved (l l' : Layer α) (id : ElementId) (vars : Box VariableId) : Prop where
  /-- What is left keeps its definition, its switch and its place. -/
  constraintsKept : l'.engine.constraints.entries.entries = l.engine.constraints.entries.entries.filter
    fun k => !vars.toList.any k.2.definition.mentions
  /-- What is left keeps its priority, its target and its place. -/
  varsKept : l'.engine.vars.entries.entries
    = l.engine.vars.entries.entries.filter fun k => k.1 ∉ vars.toList
  /-- The layer forgets what was deleted, and keeps the gates of all other constraints. -/
  trackedKept : l'.constraints.entries
    = l.constraints.entries.filter fun k => k.1 ∉ l.engine.mentioning vars.toList
  elementsKept : l'.elements.entries = l.elements.entries.filter fun k => k.1 ≠ id
  frame : l'.frame = l.frame
  orientation : l'.orientation = l.orientation
  listeners : l'.listeners = l.listeners
  calls : l'.calls = l.calls

/-- An element whose variables are registered can be removed. -/
theorem removeElement_ensures (h : l.engine.Registered) (hid : l.elements.get? id = some vars)
    (hnodup : vars.toList.Nodup)
    (hvars : ∀ x ∈ vars.toList, ∃ entry, l.engine.vars.entries.get? x = some entry) :
    (Layer.removeElement id).Ensures l (fun _ l' => l.ElementRemoved l' id vars ∧
        l'.engine.Registered ∧ l'.engine.id = l.engine.id ∧ l'.engine.dirty = true)
      (fun _ _ => False) := by
  have helement : l.element id = .ok vars := by
    unfold element
    rw [hid]
  refine ensures_get_bind ?_
  rw [helement]
  refine ensures_bind (ensures_pure (ensures_bind ((releaseAll_ensures h hvars).mono ?_
    fun _ _ hfalse => hfalse)))
  rintro - l₁ ⟨cs, hlost, hcs⟩
  have hfree : ∀ x ∈ vars.toList, ∀ c entry, l₁.engine.constraints.entries.get? c = some entry →
      entry.definition.mentions x = false := by
    intro x hx c entry hc
    obtain ⟨hc, hkept⟩ := hlost.get?_eq_some.1 hc
    refine Bool.eq_false_iff.2 fun hmentions => hkept ((hcs c).2 ?_)
    exact Engine.mem_mentioning.2 ⟨entry, hc, x, hx, hmentions⟩
  have hvars' : ∀ x ∈ vars.toList, ∃ entry, l₁.engine.vars.entries.get? x = some entry := by
    rw [hlost.vars]
    exact hvars
  refine ensures_bind ((removeVariables_ensures hlost.registered hnodup hvars' hfree).mono ?_
    fun _ _ hfalse => hfalse)
  intro _ l₂ hvacated
  have hrest : { l₂ with engine := l.engine, constraints := l.constraints } = l := by
    have hrest := congrArg (fun k : Layer α =>
      { k with engine := l.engine, constraints := l.constraints }) hvacated.rest
    exact hrest.trans hlost.rest
  have htracked : l₂.constraints = l₁.constraints := (congrArg Layer.constraints hvacated.rest :)
  have helements : l₂.elements = l.elements := (congrArg Layer.elements hrest :)
  refine ensures_modify ⟨⟨?_, ?_, ?_, ?_, (congrArg Layer.frame hrest :),
    (congrArg Layer.orientation hrest :), (congrArg Layer.listeners hrest :),
    (congrArg Layer.calls hrest :)⟩, hvacated.registered, hvacated.id.trans hlost.id,
    hvacated.dirty (List.cons_ne_nil _ _)⟩
  · rw [hvacated.constraints, hlost.constraints]
    refine List.filter_congr fun k hk => ?_
    rw [Bool.eq_iff_iff, decide_eq_true_iff, Bool.not_eq_true', ← Bool.not_eq_true, not_iff_not, hcs,
      Engine.mem_mentioning, List.any_eq_true]
    constructor
    · rintro ⟨entry, hc, hmentions⟩
      rw [OrderedMap.mem_entries_iff.1 hk] at hc
      cases hc
      exact hmentions
    · exact fun hmentions => ⟨k.2, OrderedMap.mem_entries_iff.1 hk, hmentions⟩
  · rw [hvacated.vars, hlost.vars]
  · change l₂.constraints.entries = _
    rw [htracked, hlost.tracked]
    exact List.filter_congr fun k _ => by simp only [hcs]
  · change (l₂.elements.erase id).entries = _
    rw [helements]
    rfl

/-- After every history, whatever was done to the engine past the layer, an element whose
variables are still registered can be removed. Its variables go with it, and so does every
constraint that mentions one of them, for the engine as well as for the layer. Nothing else is
changed, and the element's id is not issued again. -/
theorem removeElement_removes_exactly (engine : EngineId) (options : EngineOptions) (width height : α)
    (history : List (Command α)) :
    let l := (Layer.create engine options width height).after history
    ∀ id vars, l.element id = .ok vars → (∀ x ∈ vars.toList, x ∈ l.engine.vars.handles) →
      ∃ l', (Command.removeElement id).perform l = (.ok .done, l') ∧
        l.ElementRemoved l' id vars ∧ l'.element id = .error (.unknownElement id) ∧
        (∀ x ∈ vars.toList, l'.engine.vars.lookup x = .error (.unknown .var x)) ∧
        (∀ c ∈ l.engine.mentioning vars.toList, l'.engine.constraints.lookup c
          = .error (.unknown .constraint c) ∧ l'.constraints.get? c = none) ∧
        ∀ later b p, ((Command.addElement b p).perform (l'.after later)).1 ≠ .ok (.element id) := by
  intro l id vars hid hvars
  have hhoused : l.Housed := ((housed_create engine options width height).after history).1
  have hget : l.elements.get? id = some vars := by
    unfold element at hid
    split at hid
    · next hget =>
      cases hid
      exact hget
    · cases hid
  obtain ⟨_, l', hrun, hexact, hregistered, hid', -⟩ := (removeElement_ensures hhoused.registered hget
    (hhoused.distinct id vars hget) fun x hx => OrderedMap.mem_keys_iff.1 (hvars x hx)).exists_ok
  have hperform : (Command.removeElement id).perform l = (.ok .done, l') := by
    unfold Command.perform
    rw [show (Command.removeElement id).run l = .ok .done l' from bind_run_ok hrun]
  have hafter := hhoused.perform (.removeElement id)
  rw [hperform] at hafter
  obtain ⟨hhoused', hnext⟩ := hafter
  refine ⟨l', hperform, hexact, ?_, fun x hx => ?_, fun c hc => ⟨?_, ?_⟩, fun later b p => ?_⟩
  · unfold element
    rw [OrderedMap.get?_eq_none_of_filter hexact.elementsKept fun _ _ => by simp]
  · unfold Registry.lookup
    rw [hregistered.varsOwner, hid', if_pos (hhoused.issued id vars hget x hx).1,
      OrderedMap.get?_eq_none_of_filter hexact.varsKept fun _ _ => by simp [hx]]
  · obtain ⟨entry, hc, hmentions⟩ := Engine.mem_mentioning.1 hc
    unfold Registry.lookup
    rw [hregistered.constraintsOwner, hid', if_pos (hhoused.registered.constraints c entry hc).1,
      OrderedMap.get?_eq_none_of_filter hexact.constraintsKept]
    intro entry' hc'
    rw [hc] at hc'
    obtain rfl := Option.some.inj hc'
    rw [List.any_eq_true.2 hmentions]
    rfl
  · exact OrderedMap.get?_eq_none_of_filter hexact.trackedKept fun _ _ => by simp [hc]
  · exact Housed.addElement_ne hhoused'
      (Nat.lt_of_lt_of_le (hhoused.numbered id vars hget) hnext) later b p

/-- Two elements with a gated constraint about both of them, one that mentions the first on both
sides, one that the layer still knows but that was removed past it, and one that was made past it
about the second element. -/
def mixed : List (Command Rat) :=
  let x (index : Nat) : VariableId := ⟨⟨0⟩, index⟩
  let equal (y z : VariableId) : Definition Rat := ⟨.ofUnknown y, .equal, .ofUnknown z, .p1⟩
  [.addElement ⟨1, 2, 3, 4⟩ .p2, .addElement ⟨5, 6, 7, 8⟩ .p2,
    .constrain (some .portrait) (equal (x 4) (x 8)), .constrain none (equal (x 6) (x 7)),
    .constrain none (equal (x 9) (x 10)), .engine (.removeConstraint ⟨⟨0⟩, 2⟩),
    .engine (.createConstraint (equal (x 8) (x 0)) true)]

/-- With the first element goes all that mentions it. The engine keeps the last constraint, and
the layer the one that it does not know to be gone. -/
theorem removeElement_removes_exactly_mixed :
    let vars : Box VariableId := ⟨⟨⟨0⟩, 4⟩, ⟨⟨0⟩, 5⟩, ⟨⟨0⟩, 6⟩, ⟨⟨0⟩, 7⟩⟩
    let l : Layer Rat := (Layer.create ⟨0⟩ ⟨true, 100⟩ 800 600).after mixed
    (l.element ⟨0⟩ = .ok vars ∧ ∀ x ∈ vars.toList, x ∈ l.engine.vars.handles) ∧
      ∃ l', (Command.removeElement ⟨0⟩).perform l = (.ok .done, l') ∧ l.ElementRemoved l' ⟨0⟩ vars ∧
        l'.engine.constraints.handles = [⟨⟨0⟩, 3⟩] ∧ l'.constraints.keys = [⟨⟨0⟩, 2⟩] := by
  intro vars l
  have hget : l.elements.get? ⟨0⟩ = some vars := by decide +kernel
  have hvars : ∀ x ∈ vars.toList, x ∈ l.engine.vars.handles := by decide +kernel
  have hhandles : ((Command.removeElement ⟨0⟩).perform l).2.engine.constraints.handles
      = [⟨⟨0⟩, 3⟩] := by decide +kernel
  have hkeys : ((Command.removeElement ⟨0⟩).perform l).2.constraints.keys = [⟨⟨0⟩, 2⟩] := by
    decide +kernel
  -- the history has been run, and is not to be run again by unification
  have hl : l = (Layer.create ⟨0⟩ ⟨true, 100⟩ 800 600).after mixed := rfl
  clear_value l
  have helement : l.element ⟨0⟩ = .ok vars := by
    unfold element
    rw [hget]
  have hexact := removeElement_removes_exactly ⟨0⟩ ⟨true, 100⟩ 800 600 mixed
  rw [← hl] at hexact
  obtain ⟨l', hperform, hremoved, -⟩ := hexact ⟨0⟩ vars helement hvars
  rw [hperform] at hhandles hkeys
  exact ⟨⟨helement, hvars⟩, l', hperform, hremoved, hhandles, hkeys⟩

end Layer

end BoxLayout
