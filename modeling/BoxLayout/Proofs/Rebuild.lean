-- SUMMARY: Replaying the registries into an empty solver brings it in line with them, if it succeeds.
import BoxLayout.Proofs.Upkeep

/-!
# Building a solver from the registries

A replay brings in the variables and then the enabled constraints. At every step the
solver mirrors the part of the registries that has been replayed, so no call of a replay
is denied. What else is to be followed through a replay, and how its calls may fail, is
left open here.
-/

namespace BoxLayout

open Attempt

section Demands

variable {α : Type} {d d' : Demand α}

/-- What the first demand asks for, the second one does. -/
structure Demand.Sub (d d' : Demand α) : Prop where
  constraints : ∀ o c, d.constraints o = some c → d'.constraints o = some c
  wishes : ∀ x w, d.wishes x = some w → d'.wishes x = some w

theorem Demand.Fit.sub [Scalar α] (h : d'.Fit) (hsub : d.Sub d') : d.Fit :=
  h.mono hsub.constraints fun x w hw => ⟨w, hsub.wishes x w hw, rfl⟩

theorem demandOf_sub {vars vars' : VariableId → Option (VariableEntry α)}
    {constraints constraints' : ConstraintId → Option (ConstraintEntry α)}
    (hvars : ∀ x entry, vars x = some entry → vars' x = some entry)
    (hconstraints : ∀ c entry, constraints c = some entry → constraints' c = some entry) :
    (demandOf vars constraints).Sub (demandOf vars' constraints') where
  constraints o k ho := by
    cases o with
    | var x =>
      obtain ⟨entry, hentry, hk⟩ := Option.bind_eq_some_iff.1 ho
      exact Option.bind_eq_some_iff.2 ⟨entry, hvars x entry hentry, hk⟩
    | constraint c =>
      obtain ⟨entry, hentry, hk⟩ := Option.bind_eq_some_iff.1 ho
      exact Option.bind_eq_some_iff.2 ⟨entry, hconstraints c entry hentry, hk⟩
  wishes x w hx := by
    obtain ⟨entry, hentry, hw⟩ := Option.bind_eq_some_iff.1 hx
    exact Option.bind_eq_some_iff.2 ⟨entry, hvars x entry hentry, hw⟩

namespace Entries

variable {κ ε : Type} [DecidableEq κ] {k : κ} {a : ε} {es todo done : List (κ × ε)}

/-- Reading one entry further. -/
theorem find?_snoc (hd : (keys es).Nodup) (hes : es = done ++ (k, a) :: todo) :
    find? k done = none ∧ (fun j => find? j (done ++ [(k, a)]))
      = Function.update (fun j => find? j done) k (some a) := by
  have hnone : find? k done = none := by
    rw [find?_eq_none_iff]
    intro hmem
    rw [hes, keys, List.map_append, List.nodup_append] at hd
    exact hd.2.2 k hmem k List.mem_cons_self rfl
  refine ⟨hnone, funext fun j => ?_⟩
  rw [find?_append]
  by_cases hj : j = k
  · subst hj
    rw [hnone, Function.update_self]
    simp [find?]
  · have hkj : ¬k = j := fun heq => hj heq.symm
    rw [Function.update_of_ne hj]
    simp [find?, hkj]

theorem find?_of_prefix (hes : es = done ++ todo) (h : find? k done = some a) :
    find? k es = some a := by
  rw [hes, find?_append, h]
  rfl

end Entries

theorem demandOf_none : demandOf (fun _ => none) (fun _ => none) = (Demand.empty : Demand α) := by
  unfold demandOf Demand.empty
  congr 1
  funext o
  cases o <;> rfl

theorem filter_values (m : OrderedMap ConstraintId (ConstraintEntry α)) :
    m.values.filter ConstraintEntry.enabled
      = (m.entries.filter fun entry => entry.2.enabled).map Prod.snd := by
  unfold OrderedMap.values
  rw [List.filter_map]
  rfl

/-- Disabled constraints ask for nothing. -/
theorem demandOf_enabled (vars : VariableId → Option (VariableEntry α))
    (m : OrderedMap ConstraintId (ConstraintEntry α)) :
    demandOf vars (fun c => Entries.find? c (m.entries.filter fun entry => entry.2.enabled))
      = demandOf vars m.get? := by
  have hkeys : (Entries.keys (m.entries.filter fun entry => entry.2.enabled)).Nodup :=
    m.nodup.sublist (List.filter_sublist.map Prod.fst)
  have hiff (c : ConstraintId) (entry : ConstraintEntry α) :
      Entries.find? c (m.entries.filter fun entry => entry.2.enabled) = some entry ↔
        m.get? c = some entry ∧ entry.enabled = true := by
    rw [Entries.find?_eq_some_iff hkeys, List.mem_filter, OrderedMap.mem_entries_iff]
  unfold demandOf
  congr 1
  funext o
  cases o with
  | var x => rfl
  | constraint c =>
    apply Option.ext
    intro k
    rw [Option.bind_eq_some_iff, Option.bind_eq_some_iff]
    constructor
    · rintro ⟨entry, hentry, hk⟩
      exact ⟨entry, ((hiff c entry).1 hentry).1, hk⟩
    · rintro ⟨entry, hentry, hk⟩
      exact ⟨entry, (hiff c entry).2 ⟨hentry, (ConstraintEntry.wanted_iff.1 hk).1⟩, hk⟩

end Demands

namespace Engine

variable {α : Type} [Scalar α] {e : Engine α} {s : Solver α} {P : Solver α → Prop}
  {E : SolverError → Solver α → Prop}

/-- The first part of a replay. -/
theorem Registered.enterVars_ensures (h : e.Registered) (hgraded : Strength.Graded α)
    (henter : ∀ d s x entry, d.Sub e.demand → Mirrors d s → P s →
      e.vars.entries.get? x = some entry → (entry.enter x).Ensures s (fun _ s' => P s') E)
    (hmirrors : Mirrors Demand.empty s) (hP : P s) :
    (e.vars.entries.entries.forM fun entry => entry.2.enter entry.1).Ensures s
      (fun _ s' => Mirrors (demandOf e.vars.entries.get? fun _ => none) s' ∧ P s')
      (fun err s' => err.isDenial = false ∧ E err s') := by
  let demandAt (done : List (VariableId × VariableEntry α)) : Demand α :=
    demandOf (fun x => Entries.find? x done) fun _ => none
  rw [← demandOf_none] at hmirrors
  refine ensures_forM (I := fun done s => Mirrors (demandAt done) s ∧ P s) ?_ ⟨hmirrors, hP⟩
  rintro done ⟨x, entry⟩ todo s hes ⟨hmirrors, hP⟩
  obtain ⟨hfree, hsnoc⟩ := Entries.find?_snoc e.vars.entries.nodup hes
  have hsub (done todo : List (VariableId × VariableEntry α))
      (hes : e.vars.entries.entries = done ++ todo) : (demandAt done).Sub e.demand := by
    refine demandOf_sub (fun y v hy => Entries.find?_of_prefix hes hy) fun c v hc => ?_
    cases hc
  have hnext : demandAt (done ++ [(x, entry)]) = (demandAt done).withVariable x (some entry) := by
    change demandOf (fun y => Entries.find? y (done ++ [(x, entry)])) _ = _
    rw [hsnoc, demandOf_update_var]
  have hes' := hes.trans (List.append_cons done (x, entry) todo)
  have hfit := h.fit.sub (hsub _ _ hes')
  have hentry : e.vars.entries.get? x = some entry := by
    refine Entries.find?_of_prefix hes' ?_
    exact (congrFun hsnoc x).trans (Function.update_self ..)
  rw [hnext] at hfit
  have hmirror := (Mirrors.upkeep hgraded).enter hmirrors (by simp [demandAt, demandOf, hfree])
    (by simp [demandAt, demandOf, hfree]) hfit
  refine (hmirror.and (henter _ s x entry (hsub _ _ hes) hmirrors hP hentry)).mono ?_ fun _ _ he => he
  intro _ s' hs'
  rw [hnext]
  exact hs'

/-- The second part of a replay. -/
theorem Registered.enterConstraints_ensures (h : e.Registered)
    (hadd : ∀ d s c entry, d.Sub e.demand → Mirrors d s → P s →
      e.constraints.entries.get? c = some entry → entry.enabled = true →
      (Solver.addConstraint entry.backing).Ensures s (fun _ s' => P s') E)
    (hmirrors : Mirrors (demandOf e.vars.entries.get? fun _ => none) s) (hP : P s) :
    ((e.constraints.entries.values.filter ConstraintEntry.enabled).forM fun entry =>
        Solver.addConstraint entry.backing).Ensures s (fun _ s' => Mirrors e.demand s' ∧ P s')
      (fun err s' => err.isDenial = false ∧ E err s') := by
  let enabled := e.constraints.entries.entries.filter fun entry => entry.2.enabled
  let demandAt (done : List (ConstraintId × ConstraintEntry α)) : Demand α :=
    demandOf e.vars.entries.get? fun c => Entries.find? c done
  have hkeys : (Entries.keys enabled).Nodup :=
    e.constraints.entries.nodup.sublist (List.filter_sublist.map Prod.fst)
  rw [filter_values, List.forM_eq_forM, List.forM_map, ← List.forM_eq_forM]
  rw [show e.demand = demandAt enabled from (demandOf_enabled _ _).symm]
  refine ensures_forM (I := fun done s => Mirrors (demandAt done) s ∧ P s) ?_ ⟨hmirrors, hP⟩
  rintro done ⟨c, entry⟩ todo s hes ⟨hmirrors, hP⟩
  obtain ⟨hfree, hsnoc⟩ := Entries.find?_snoc hkeys hes
  have hof (done todo : List (ConstraintId × ConstraintEntry α)) (hes : enabled = done ++ todo)
      (c : ConstraintId) (entry : ConstraintEntry α) (hc : Entries.find? c done = some entry) :
      e.constraints.entries.get? c = some entry ∧ entry.enabled = true := by
    have hmem := (Entries.find?_eq_some_iff hkeys).1 (Entries.find?_of_prefix hes hc)
    obtain ⟨hmem, hon⟩ := List.mem_filter.1 hmem
    exact ⟨OrderedMap.mem_entries_iff.1 hmem, hon⟩
  have hsub (done todo : List (ConstraintId × ConstraintEntry α)) (hes : enabled = done ++ todo) :
      (demandAt done).Sub e.demand :=
    demandOf_sub (fun _ _ hy => hy) fun c v hc => (hof done todo hes c v hc).1
  have hes' := hes.trans (List.append_cons done (c, entry) todo)
  obtain ⟨hentry, hon⟩ := hof _ _ hes' c entry ((congrFun hsnoc c).trans (Function.update_self ..))
  have hnext : demandAt (done ++ [(c, entry)])
      = (demandAt done).withConstraint (.constraint c) (some entry.backing) := by
    change demandOf _ (fun y => Entries.find? y (done ++ [(c, entry)])) = _
    rw [hsnoc, demandOf_update_constraint, Option.bind_some, ConstraintEntry.wanted, if_pos hon]
  have hfit := h.fit.sub (hsub _ _ hes')
  rw [hnext] at hfit
  have hmirror := hmirrors.hold (by simp [demandAt, demandOf, hfree]) hfit
  refine (hmirror.and (hadd _ s c entry (hsub _ _ hes) hmirrors hP hentry hon)).mono ?_
    fun _ _ he => he
  intro _ s' hs'
  rw [hnext]
  exact hs'

/-- A replay leaves a solver that mirrors the registries. Whatever the calls keep of
solvers that mirror a part of the registries holds of it, too. -/
theorem Registered.enterAll_ensures (h : e.Registered) (hgraded : Strength.Graded α)
    (henter : ∀ d s x entry, d.Sub e.demand → Mirrors d s → P s →
      e.vars.entries.get? x = some entry → (entry.enter x).Ensures s (fun _ s' => P s') E)
    (hadd : ∀ d s c entry, d.Sub e.demand → Mirrors d s → P s →
      e.constraints.entries.get? c = some entry → entry.enabled = true →
      (Solver.addConstraint entry.backing).Ensures s (fun _ s' => P s') E)
    (steps : Nat) (hP : P (.empty steps)) :
    (enterAll e.vars e.constraints).Ensures (.empty steps) (fun _ s => Mirrors e.demand s ∧ P s)
      (fun err s => err.isDenial = false ∧ E err s) := by
  refine ensures_bind ((h.enterVars_ensures hgraded henter (.empty steps) hP).mono ?_ fun _ _ he => he)
  rintro - s ⟨hmirrors, hP⟩
  exact h.enterConstraints_ensures hadd hmirrors hP

/-- What a replay ensures can be read from its result. -/
theorem replay_cases {vars : VariableRegistry α} {constraints : ConstraintRegistry α} {steps : Nat}
    {Q : Unit → Solver α → Prop} (h : (enterAll vars constraints).Ensures (.empty steps) Q E) :
    (∃ s, replay steps vars constraints = .ok s ∧ Q () s) ∨
      ∃ err s, replay steps vars constraints = .error err ∧ E err s := by
  unfold Ensures at h
  unfold replay
  cases hrun : enterAll vars constraints (.empty steps) with
  | ok _ s =>
    rw [hrun] at h
    exact Or.inl ⟨s, rfl, h⟩
  | error err s =>
    rw [hrun] at h
    exact Or.inr ⟨err, s, rfl, h⟩

/-- A replay builds a solver that mirrors the registries, or fails without a denial. -/
theorem Registered.replay_mirrors (h : e.Registered) (hgraded : Strength.Graded α) (steps : Nat) :
    (∃ s, replay steps e.vars e.constraints = .ok s ∧ Mirrors e.demand s) ∨
      ∃ err, replay steps e.vars e.constraints = .error err ∧ err.isDenial = false := by
  have hanything {m : Attempt SolverError (Solver α) Unit} {s : Solver α} :
      m.Ensures s (fun _ _ => True) (fun _ _ => True) :=
    (ensures_run m s).mono (fun _ _ _ => trivial) fun _ _ _ => trivial
  have hall := h.enterAll_ensures (P := fun _ => True) (E := fun _ _ => True) hgraded
    (fun _ _ _ _ _ _ _ _ => hanything) (fun _ _ _ _ _ _ _ _ _ => hanything) steps trivial
  obtain ⟨s, hs, hmirrors, -⟩ | ⟨err, s, hs, hdenial, -⟩ := replay_cases hall
  · exact Or.inl ⟨s, hs, hmirrors⟩
  · exact Or.inr ⟨err, hs, hdenial⟩

/-- A solver that has been built from the registries mirrors them. -/
theorem Registered.mirrors_of_replay (h : e.Registered) (hgraded : Strength.Graded α) {steps : Nat}
    (hs : replay steps e.vars e.constraints = .ok s) : Mirrors e.demand s := by
  obtain ⟨s', hs', hmirrors⟩ | ⟨err, herr, -⟩ := h.replay_mirrors hgraded steps
  · rw [hs] at hs'
    cases hs'
    exact hmirrors
  · rw [hs] at herr
    cases herr

theorem Registered.denial_of_replay (h : e.Registered) (hgraded : Strength.Graded α) {steps : Nat}
    {err : SolverError} (herr : replay steps e.vars e.constraints = .error err) :
    err.isDenial = false := by
  obtain ⟨s, hs, -⟩ | ⟨err', herr', hdenial⟩ := h.replay_mirrors hgraded steps
  · rw [herr] at hs
    cases hs
  · rw [herr] at herr'
    cases herr'
    exact hdenial

end Engine

end BoxLayout
