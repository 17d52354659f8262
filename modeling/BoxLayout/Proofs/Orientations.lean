-- SUMMARY: A layer turns without fail, with its gates right and every listener told once.
import BoxLayout.Proofs.Gates
import BoxLayout.Scalar.Exact

/-!
# Orientations

A layer that turns has all gated constraints switched first, then forgets those that are no
longer registered, takes the new orientation and tells its listeners. Every constraint that it
knows was issued by its own engine, so nothing can go wrong with switching it but that it is no
longer there.

Over a history, what the listeners have been told is the record of the turns: each turn is told
once, to those that listen by then, in the order in which they began to.
-/

namespace BoxLayout.Layer

open Attempt

variable {α : Type} [Scalar α] {l l' : Layer α} {e e' e'' : Engine α} {o : Orientation}

/-! ## Switching gates -/

/-- The engine after some constraints have been switched. -/
structure Switched (e e' : Engine α) (cs : List ConstraintId) : Prop where
  registered : e'.Registered
  inherits : e.Inherits e' (· ∈ cs)
  gone : ∀ c, e'.constraints.entries.get? c = none ↔ e.constraints.entries.get? c = none

theorem Switched.trans {cs cs' : List ConstraintId} (h : Switched e e' cs) (h' : Switched e' e'' cs') :
    Switched e e'' (cs ++ cs') where
  registered := h'.registered
  inherits := (h.inherits.mono fun _ hc => List.mem_append_left _ hc).trans
    (h'.inherits.mono fun _ hc => List.mem_append_right _ hc)
  gone c := (h'.gone c).trans (h.gone c)

/-- The other constraints are as they were. -/
theorem Switched.kept {cs : List ConstraintId} {c : ConstraintId} {entry : ConstraintEntry α}
    (h : Switched e e' cs) (hregistered : e.Registered) (hc : c ∉ cs)
    (hentry : e'.constraints.entries.get? c = some entry) :
    ∃ entry₀, e.constraints.entries.get? c = some entry₀ ∧ entry.enabled = entry₀.enabled := by
  have hbefore : e.constraints.entries.get? c ≠ none := fun hnone => by
    rw [(h.gone c).2 hnone] at hentry
    cases hentry
  obtain ⟨entry₀, hentry₀⟩ := Option.ne_none_iff_exists'.1 hbefore
  have hindex := (hregistered.constraints c entry₀ hentry₀).2.1
  obtain ⟨entry₀, hentry₀, hsame⟩ := h.inherits.kept c entry hindex hentry
  exact ⟨entry₀, hentry₀, hsame hc⟩

/-- A gate is switched, or its constraint is found to be gone. -/
theorem switchGate_ensures (h : l.engine.Registered) {c : ConstraintId} (howner : c.owner = l.engine.id)
    (o gate : Orientation) : (switchGate o c gate).Ensures l
      (fun gone l' => ∃ e', l' = { l with engine := e' } ∧ Switched l.engine e' [c] ∧
        (gone = true ↔ e'.constraints.entries.get? c = none) ∧
        ∀ entry, e'.constraints.entries.get? c = some entry → entry.enabled = decide (gate = o))
      (fun _ _ => False) := by
  have hlogged (level : LogLevel) (message : String) :
      (l.engine.log level .layer message).Registered := h.congr rfl rfl rfl rfl
  refine ensures_modify_bind (ensures_bind (ensures_onPart (ensures_outcome ?_)))
  refine ((hlogged _ _).setEnabled_ensures howner _).mono ?_ ?_
  · rintro - e' ⟨⟨hregistered, hinherits⟩, hsame, entry, hc, henabled⟩
    refine ensures_pure ⟨e', rfl, ⟨hregistered, ?_, hsame⟩, by simp [hc], fun entry' hc' => ?_⟩
    · have hunlogged : l.engine.Inherits e' (· = c) := ⟨hinherits.id, hinherits.next, hinherits.kept⟩
      refine hunlogged.mono ?_
      rintro d rfl
      exact List.mem_singleton_self d
    · obtain rfl := Option.some.inj (hc.symm.trans hc')
      exact henabled
  · rintro err e' ⟨rfl, rfl, hgone⟩
    refine ensures_pure
      ⟨_, rfl, ⟨hlogged _ _, .of_constraints rfl rfl, fun _ => .rfl⟩, ?_, fun entry hc => ?_⟩
    · exact iff_of_true rfl hgone
    · rw [hgone] at hc
      cases hc

/-- Whether the first constraint is gone, and which of the others are. -/
theorem mem_gone {p : ConstraintId → Prop} {c d : ConstraintId} {cs others : List ConstraintId}
    {gone : Bool} (hgone : gone = true ↔ p c) (hothers : ∀ d, d ∈ others ↔ d ∈ cs ∧ p d) :
    d ∈ (if gone then c :: others else others) ↔ d ∈ c :: cs ∧ p d := by
  rw [List.mem_cons]
  cases gone with
  | true =>
    rw [if_pos rfl, List.mem_cons, hothers]
    constructor
    · rintro (rfl | ⟨hd, hp⟩)
      · exact ⟨.inl rfl, hgone.1 rfl⟩
      · exact ⟨.inr hd, hp⟩
    · rintro ⟨rfl | hd, hp⟩
      · exact .inl rfl
      · exact .inr ⟨hd, hp⟩
  | false =>
    rw [if_neg Bool.false_ne_true, hothers]
    refine and_congr_left fun hp => (or_iff_right ?_).symm
    rintro rfl
    cases hgone.2 hp

/-- The gates are switched in order. The constraints that are gone are found, and nothing else
goes wrong. -/
theorem switchGates_ensures {gates : List (ConstraintId × Orientation)} (h : l.engine.Registered)
    (howner : ∀ c gate, (c, gate) ∈ gates → c.owner = l.engine.id)
    (hsingle : ∀ c gate gate', (c, gate) ∈ gates → (c, gate') ∈ gates → gate = gate')
    (o : Orientation) :
    (switchGates o gates).Ensures l
      (fun gone l' => ∃ e', l' = { l with engine := e' } ∧ Switched l.engine e' (gates.map Prod.fst) ∧
        (∀ c, c ∈ gone ↔ c ∈ gates.map Prod.fst ∧ e'.constraints.entries.get? c = none) ∧
        ∀ c gate entry, (c, gate) ∈ gates → e'.constraints.entries.get? c = some entry →
          entry.enabled = decide (gate = o))
      (fun _ _ => False) := by
  induction gates generalizing l with
  | nil =>
    exact ensures_pure ⟨l.engine, rfl, ⟨h, .refl _, fun _ => .rfl⟩, by simp, by simp⟩
  | cons g gates ih =>
    obtain ⟨c, gate⟩ := g
    have hfirst := switchGate_ensures h (howner c gate List.mem_cons_self) o gate
    refine ensures_bind (hfirst.mono ?_ fun _ _ hfalse => hfalse)
    rintro gone - ⟨e₁, rfl, hswitched, hgone, henabled⟩
    have hrest := ih (l := { l with engine := e₁ }) hswitched.registered
      (fun d gate hd => (howner d gate (List.mem_cons_of_mem _ hd)).trans hswitched.inherits.id.symm)
      (fun d gate gate' hd hd' =>
        hsingle d gate gate' (List.mem_cons_of_mem _ hd) (List.mem_cons_of_mem _ hd'))
    refine ensures_bind (hrest.mono ?_ fun _ _ hfalse => hfalse)
    rintro others - ⟨e₂, rfl, hswitched', hothers, henabled'⟩
    refine ensures_pure
      ⟨e₂, rfl, hswitched.trans hswitched', fun d => ?_, fun d gate' entry hd hentry => ?_⟩
    · -- later turns register and remove nothing, so what is gone is seen at any time
      have hkept : gone = true ↔ e₂.constraints.entries.get? c = none :=
        hgone.trans (hswitched'.gone c).symm
      exact mem_gone hkept hothers
    · by_cases hlater : d ∈ gates.map Prod.fst
      · obtain ⟨⟨d', gate''⟩, hmem, rfl⟩ := List.mem_map.1 hlater
        obtain rfl := hsingle d' gate' gate'' hd (List.mem_cons_of_mem _ hmem)
        exact henabled' d' gate' entry hmem hentry
      · rcases List.mem_cons.1 hd with hd | hd
        · cases hd
          obtain ⟨entry₁, hentry₁, hsame⟩ := hswitched'.kept hswitched.registered hlater hentry
          rw [hsame]
          exact henabled entry₁ hentry₁
        · exact absurd (List.mem_map.2 ⟨_, hd, rfl⟩) hlater

/-! ## Turning -/

omit [Scalar α] in
theorem mem_gated {c : ConstraintId} {gate : Orientation} :
    (c, gate) ∈ l.gated ↔ l.constraints.get? c = some (some gate) := by
  unfold gated
  rw [List.mem_filterMap]
  constructor
  · rintro ⟨⟨d, gate'⟩, hmem, hgate⟩
    obtain ⟨gate'', rfl, heq⟩ := Option.map_eq_some_iff.1 hgate
    cases heq
    exact OrderedMap.mem_entries_iff.1 hmem
  · intro hgate
    exact ⟨(c, some gate), OrderedMap.mem_entries_iff.2 hgate, rfl⟩

/-- The layer after it has forgotten some constraints. -/
structure Forgot (l l' : Layer α) (gone : List ConstraintId) : Prop where
  registered : l'.engine.Registered
  id : l'.engine.id = l.engine.id
  engine : l'.engine.constraints = l.engine.constraints
  orientation : l'.orientation = l.orientation
  listeners : l'.listeners = l.listeners
  calls : l'.calls = l.calls
  known : ∀ c, l'.constraints.get? c = if c ∈ gone then none else l.constraints.get? c

theorem forget_ensures (h : l.engine.Registered) (gone : List ConstraintId) :
    Ensures (gone.forM fun c => do
        modify (log .debug s!"dropping removed {c.text}")
        modify (forget c) : Attempt LayerError (Layer α) PUnit) l
      (fun _ l' => Forgot l l' gone) (fun _ _ => False) := by
  refine ensures_forM (I := fun done l' => Forgot l l' done) ?_ ⟨h, rfl, rfl, rfl, rfl, rfl, by simp⟩
  rintro done c todo l' - ⟨hregistered, hid, hengine, horientation, hlisteners, hcalls, hknown⟩
  refine ensures_modify_bind (ensures_modify ⟨hregistered.congr rfl rfl rfl rfl, hid, hengine,
    horientation, hlisteners, hcalls, fun d => ?_⟩)
  refine (OrderedMap.get?_erase _ _ _).trans ?_
  change (if d = c then none else l'.constraints.get? d) = _
  rw [hknown]
  by_cases hd : d = c <;> simp [hd]

/-- With all gates switched and all that is gone forgotten, the gates are right for the new
orientation. -/
theorem Gated.turned (h : l.Gated) (hnew : l.orientation ≠ o) {gone : List ConstraintId}
    (hswitched : Switched l.engine e' (l.gated.map Prod.fst))
    (hgone : ∀ c, c ∈ gone ↔ c ∈ l.gated.map Prod.fst ∧ e'.constraints.entries.get? c = none)
    (henabled : ∀ c gate entry, (c, gate) ∈ l.gated → e'.constraints.entries.get? c = some entry →
      entry.enabled = decide (gate = o))
    (hforgot : Forgot { l with engine := e' } l' gone) : l.Turned (commit o l') o := by
  have hinherits : l.engine.Inherits l'.engine (· ∈ l.gated.map Prod.fst) :=
    hswitched.inherits.trans (.of_constraints hforgot.id hforgot.engine)
  have hknown {c : ConstraintId} {gate : Option Orientation} (hc : l'.constraints.get? c = some gate) :
      c ∉ gone ∧ l.constraints.get? c = some gate := by
    rw [hforgot.known] at hc
    split at hc
    · cases hc
    · next hkept => exact ⟨hkept, hc⟩
  have hgates {c : ConstraintId} {gate : Orientation} (hc : l.constraints.get? c = some (some gate)) :
      c ∈ l.gated.map Prod.fst := List.mem_map.2 ⟨(c, gate), mem_gated.2 hc, rfl⟩
  refine ⟨⟨⟨hforgot.registered, fun c gate hc => ?_, fun c gate entry hc hentry => ?_⟩,
    hinherits.mono fun _ _ => trivial, fun c entry _ hentry => ?_⟩, hnew, rfl, hforgot.listeners, ?_, ?_⟩
  · obtain ⟨howner, hindex⟩ := h.issued c gate (hknown hc).2
    exact ⟨howner.trans hinherits.id.symm, Nat.lt_of_lt_of_le hindex hinherits.next⟩
  · change l'.engine.constraints.entries.get? c = some entry at hentry
    rw [hforgot.engine] at hentry
    have hc := (hknown hc).2
    cases gate with
    | some gate => exact henabled c gate entry (mem_gated.2 hc) hentry
    | none =>
      have hungated : c ∉ l.gated.map Prod.fst := fun hmem => by
        obtain ⟨⟨d, gate⟩, hd, rfl⟩ := List.mem_map.1 hmem
        cases hc.symm.trans (mem_gated.1 hd)
      obtain ⟨entry₀, hentry₀, hsame⟩ := hswitched.kept h.registered hungated hentry
      rw [hsame]
      exact h.enabled c none entry₀ hc hentry₀
  · change l'.engine.constraints.entries.get? c = some entry at hentry
    rw [hforgot.engine] at hentry
    refine (hforgot.known c).trans (if_neg fun hc => ?_)
    rw [((hgone c).1 hc).2] at hentry
    cases hentry
  · change l'.calls ++ l'.listeners.map (·, o) = _
    rw [hforgot.calls, hforgot.listeners]
  · intro c gate hc
    obtain ⟨hkept, hc⟩ := hknown hc
    change ∃ entry, l'.engine.constraints.entries.get? c = some entry
    rw [hforgot.engine]
    exact Option.ne_none_iff_exists'.1 fun hnone => hkept ((hgone c).2 ⟨hgates hc, hnone⟩)

/-- A layer that is to turn does so, whatever became of its constraints. -/
theorem Gated.setOrientation (h : l.Gated) (hnew : l.orientation ≠ o) :
    (Layer.setOrientation o).Ensures l (fun _ l' => l.Turned l' o) (fun _ _ => False) := by
  refine ensures_get_bind ?_
  rw [if_neg hnew]
  refine ensures_modify_bind ?_
  have hsingle (c : ConstraintId) (gate gate' : Orientation) (hc : (c, gate) ∈ l.gated)
      (hc' : (c, gate') ∈ l.gated) : gate = gate' :=
    Option.some.inj (Option.some.inj ((mem_gated.1 hc).symm.trans (mem_gated.1 hc')))
  refine ensures_bind (Ensures.mono (switchGates_ensures ?_ ?_ hsingle o) ?_ fun _ _ hfalse => hfalse)
  · exact h.registered.congr rfl rfl rfl rfl
  · exact fun c gate hc => (h.issued c _ (mem_gated.1 hc)).1
  rintro gone - ⟨e', rfl, ⟨hregistered, hinherits, hsame⟩, hgone, henabled⟩
  refine ensures_bind ((forget_ensures hregistered gone).mono ?_ fun _ _ hfalse => hfalse)
  rintro - l' ⟨hregistered', hid, hengine, horientation, hlisteners, hcalls, hknown⟩
  refine ensures_modify (h.turned hnew ⟨hregistered, ?_, hsame⟩ hgone henabled ?_)
  · exact ⟨hinherits.id, hinherits.next, hinherits.kept⟩
  · exact ⟨hregistered', hid, hengine, horientation, hlisteners, hcalls, hknown⟩

theorem setOrientation_same (hsame : l.orientation = o) : Layer.setOrientation o l = .ok () l := by
  unfold Layer.setOrientation
  rw [get_bind_run, if_pos hsame]
  rfl

/-- The layer has been quiet, or it has turned. -/
def Continues (l l' : Layer α) : Prop := l.Quiet l' ∨ ∃ o, l.Turned l' o

/-- Setting the orientation cannot fail. -/
theorem Gated.orient (h : l.Gated) (o : Orientation) : (Layer.setOrientation o).Ensures l
    (fun _ l' => l.Continues l' ∧ l'.orientation = o) (fun _ _ => False) := by
  by_cases hsame : l.orientation = o
  · unfold Ensures
    rw [setOrientation_same hsame]
    exact ⟨.inl (.refl h), hsame⟩
  · exact (h.setOrientation hsame).mono (fun _ _ hturned => ⟨.inr ⟨o, hturned⟩, hturned.orientation⟩)
      fun _ _ hfalse => hfalse

/-- A layer that is resized may turn after that. -/
theorem Gated.resize (h : l.Gated) (width height : α) :
    (Layer.resize width height).Ensures l (fun _ => l.Continues) (fun _ => l.Continues) := by
  refine ensures_get_bind (ensures_bind ((h.suggest _ width).mono ?_ fun _ _ hquiet => .inl hquiet))
  rintro - l₁ hquiet₁
  refine ensures_get_bind (ensures_bind ((hquiet₁.gated.suggest _ height).mono ?_
    fun _ _ hquiet => .inl (hquiet₁.trans hquiet)))
  rintro - l₂ hquiet₂
  have hquiet := hquiet₁.trans hquiet₂
  refine (hquiet.gated.orient _).mono ?_ fun _ _ hfalse => hfalse.elim
  rintro - l' ⟨hquiet' | ⟨o, hturned⟩, -⟩
  · exact .inl (hquiet.trans hquiet')
  · exact .inr ⟨o, hquiet.trans_turned hturned⟩

/-! ## Calls -/

section

variable {α : Type}

/-- Who listens from a call on. -/
def Command.enlists : Command α → List ListenerId
  | listen who => [who]
  | _ => []

/-- The constraint that a call makes, with its gate. -/
def Command.makes :
    Command α → Except LayerError (Reply α) → Option (ConstraintId × Option Orientation)
  | constrain gate _, .ok (.constraint c) => some (c, gate)
  | _, _ => none

end

/-- A call leaves the gates to the layer: it does not go past the layer to switch a constraint
that the layer knows. -/
def Respects (l : Layer α) (c : Command α) : Prop :=
  ∀ id enabled, c = .engine (.setEnabled id enabled) → l.constraints.get? id = none

/-- What a call makes of a layer in which the gates are right. -/
structure Moves (l l' : Layer α) (c : Command α) : Prop extends Follows l l' where
  listeners : l'.listeners = l.listeners ++ c.enlists
  calls : l'.calls = l.calls ++
    if l'.orientation = l.orientation then [] else l.listeners.map (·, l'.orientation)
  reached : l'.orientation ≠ l.orientation → ∀ c gate, l'.constraints.get? c = some (some gate) →
    ∃ entry, l'.engine.constraints.entries.get? c = some entry

theorem Quiet.moves {c : Command α} (h : l.Quiet l') (hc : c.enlists = []) : l.Moves l' c where
  toFollows := h.toFollows
  listeners := by rw [h.listeners, hc, List.append_nil]
  calls := by rw [if_pos h.orientation, h.calls, List.append_nil]
  reached hnew := absurd h.orientation hnew

theorem Turned.moves {c : Command α} (h : l.Turned l' o) (hc : c.enlists = []) : l.Moves l' c where
  toFollows := h.toFollows
  listeners := by rw [h.listeners, hc, List.append_nil]
  calls := by rw [h.orientation, if_neg fun hsame => h.new hsame.symm, h.calls]
  reached _ := h.reached

/-- A call leaves the layer that its attempt leaves. -/
theorem Command.perform_ensures {c : Command α} {P : Layer α → Prop}
    (h : c.run.Ensures l (fun _ => P) (fun _ => P)) : P (c.perform l).2 := by
  unfold Command.perform
  unfold Ensures at h
  cases hrun : c.run l with
  | ok r l' => simpa [hrun] using h
  | error err l' => simpa [hrun] using h

theorem Gated.perform (h : l.Gated) {c : Command α} (hc : l.Respects c) :
    l.Moves (c.perform l).2 c := by
  have hstays (henlists : c.enlists = []) (hrun : Stays c.run l) : l.Moves (c.perform l).2 c :=
    (Command.perform_ensures hrun).moves henlists
  have hcontinues (henlists : c.enlists = [])
      (hrun : c.run.Ensures l (fun _ => l.Continues) (fun _ => l.Continues)) :
      l.Moves (c.perform l).2 c := by
    rcases Command.perform_ensures hrun with hquiet | ⟨o, hturned⟩
    · exact hquiet.moves henlists
    · exact hturned.moves henlists
  -- the answer of a call is made out of what an attempt answers
  have hreply {β : Type} {m : Attempt LayerError (Layer α) β} (hm : Stays m l) (f : β → Reply α) :
      Stays (m >>= fun b => pure (f b)) l := hm.bind fun b l' h' => stays_pure h' (f b)
  cases c with
  | orientation | elements => exact (Quiet.refl h).moves rfl
  | listen who =>
    have hfollows : l.Follows (Layer.listen who l) :=
      ⟨⟨h.registered, h.issued, h.enabled⟩, .refl _, fun _ _ _ _ => rfl⟩
    have hcalls : l.calls = l.calls ++
        if l.orientation = l.orientation then [] else l.listeners.map (·, l.orientation) := by simp
    exact ⟨hfollows, rfl, hcalls, fun hnew => absurd rfl hnew⟩
  | addElement b p => exact (h.addElement b p).moves rfl
  | setOrientation o =>
    refine hcontinues rfl (ensures_bind ((h.orient o).mono ?_ fun _ _ hfalse => hfalse.elim))
    exact fun _ _ hturned => ensures_pure hturned.1
  | resize width height =>
    refine hcontinues rfl (ensures_bind ((h.resize width height).mono ?_ fun _ _ h => h))
    exact fun _ _ hresized => ensures_pure hresized
  | size =>
    refine hstays rfl (ensures_get_bind ((stays_ofExcept h l.size).bind fun size l' h' => ?_))
    exact stays_pure h' _
  | element id => exact hstays rfl (ensures_get_bind (hreply (stays_ofExcept h _) .handles))
  | removeElement id => exact hstays rfl (hreply (h.removeElement id) fun _ => .done)
  | move id b => exact hstays rfl (hreply (h.move id b) fun _ => .done)
  | bounds id => exact hstays rfl (hreply (h.bounds id) .bounds)
  | update => exact hstays rfl (hreply h.update .frame)
  | constrain gate d =>
    have hmade : Stays (Layer.constrain gate d) l :=
      (h.constrain gate d).mono (fun _ _ hmade => hmade.1) fun _ _ hquiet => hquiet
    exact hstays rfl (hreply hmade .constraint)
  | release c => exact hstays rfl (hreply (h.release c) fun _ => .done)
  | engine command =>
    refine hstays rfl (hreply (h.onEngine (h.registered.run_passes command) fun id hid => ?_) .engine)
    cases command with
    | setEnabled id' enabled =>
      obtain rfl : id' = id := Option.some.inj hid
      exact hc id' enabled rfl
    | _ => cases hid

/-! ## Histories -/

/-- Nobody goes past the layer to switch a constraint that the layer knows. -/
def Respected (l : Layer α) : List (Command α) → Prop
  | [] => True
  | c :: history => l.Respects c ∧ (c.perform l).2.Respected history

/-- The constraints that are made over a history, with their gates. -/
def made (l : Layer α) : List (Command α) → List (ConstraintId × Option Orientation)
  | [] => []
  | c :: history => (c.makes (c.perform l).1).toList ++ (c.perform l).2.made history

/-- The orientations that the layer turns to over a history. -/
def turns (l : Layer α) : List (Command α) → List Orientation
  | [] => []
  | c :: history =>
    let l' := (c.perform l).2
    (if l'.orientation = l.orientation then [] else [l'.orientation]) ++ l'.turns history

/-- Who is to be told what over a history, if some listen already. -/
def heard (l : Layer α) (listeners : List ListenerId) :
    List (Command α) → List (ListenerId × Orientation)
  | [] => []
  | c :: history =>
    let l' := (c.perform l).2
    (if l'.orientation = l.orientation then [] else listeners.map (·, l'.orientation)) ++
      l'.heard (listeners ++ c.enlists) history

variable {history : List (Command α)}

theorem respected_of_forall (h : ∀ c ∈ history, ∀ id enabled, c ≠ .engine (.setEnabled id enabled)) :
    l.Respected history := by
  induction history generalizing l with
  | nil => trivial
  | cons c history ih =>
    have hc : l.Respects c := fun id enabled hswitch =>
      absurd hswitch (h c List.mem_cons_self id enabled)
    exact ⟨hc, ih fun c hc => h c (List.mem_cons_of_mem _ hc)⟩

theorem Gated.follows_after (h : l.Gated) (hrespected : l.Respected history) :
    l.Follows (l.after history) := by
  induction history generalizing l with
  | nil => exact .refl h
  | cons c history ih =>
    have hmoves := h.perform hrespected.1
    exact hmoves.toFollows.trans (ih hmoves.gated hrespected.2)

/-- A constraint that a call makes is known from then on. -/
theorem Gated.tracked_makes (h : l.Gated) {command : Command α} {c : ConstraintId}
    {gate : Option Orientation} (hmakes : command.makes (command.perform l).1 = some (c, gate)) :
    (command.perform l).2.constraints.get? c = some gate := by
  cases command with
  | constrain gate' d =>
    have hrun : (Command.constrain gate' d).run.Ensures l
        (fun r l' => ∃ c, r = .constraint c ∧ l'.constraints.get? c = some gate') (fun _ _ => True) :=
      ensures_bind ((h.constrain gate' d).mono
        (fun c _ hknown => ensures_pure ⟨c, rfl, hknown.2⟩) fun _ _ _ => trivial)
    unfold Command.perform at hmakes ⊢
    unfold Ensures at hrun
    cases hend : (Command.constrain gate' d).run l with
    | ok r l' =>
      rw [hend] at hmakes hrun
      obtain ⟨c', rfl, hknown⟩ := hrun
      cases hmakes
      exact hknown
    | error err l' =>
      rw [hend] at hmakes
      cases hmakes
  | _ => cases hmakes

/-- A constraint that the layer has made stays known to it, as long as it is registered. -/
theorem Gated.tracked_made (h : l.Gated) (hrespected : l.Respected history) {c : ConstraintId}
    {gate : Option Orientation} {entry : ConstraintEntry α} (hmade : (c, gate) ∈ l.made history)
    (hentry : (l.after history).engine.constraints.entries.get? c = some entry) :
    (l.after history).constraints.get? c = some gate := by
  induction history generalizing l with
  | nil => cases hmade
  | cons command history ih =>
    have hgated := (h.perform hrespected.1).gated
    rcases List.mem_append.1 hmade with hmade | hmade
    · have hknown := h.tracked_makes (Option.mem_toList.1 hmade)
      have hindex := (hgated.issued c gate hknown).2
      exact ((hgated.follows_after hrespected.2).tracked c entry hindex hentry).trans hknown
    · exact ih hgated hrespected.2 hmade hentry

/-- What has been told is what was to be told. -/
theorem Gated.calls_after (h : l.Gated) (hrespected : l.Respected history) :
    (l.after history).calls = l.calls ++ l.heard l.listeners history := by
  induction history generalizing l with
  | nil => exact (List.append_nil _).symm
  | cons c history ih =>
    have hmoves := h.perform hrespected.1
    refine (ih hmoves.gated hrespected.2).trans ?_
    rw [hmoves.calls, hmoves.listeners, List.append_assoc]
    rfl

theorem heard_append (l : Layer α) (listeners : List ListenerId) (earlier later : List (Command α)) :
    l.heard listeners (earlier ++ later) = l.heard listeners earlier ++
      (l.after earlier).heard (listeners ++ earlier.flatMap Command.enlists) later := by
  induction earlier generalizing l listeners with
  | nil => simp [heard, after]
  | cons c earlier ih =>
    simp only [List.cons_append, heard, ih, List.append_assoc, List.flatMap_cons]
    rfl

/-- A listener is told every turn once for each time that it has been registered. -/
theorem told_turns (l : Layer α) {who : ListenerId} (listeners : List ListenerId)
    (hothers : ∀ c ∈ history, c ≠ .listen who) :
    ((l.heard listeners history).filter fun call => call.1 = who).map Prod.snd
      = (l.turns history).flatMap fun o => List.replicate (listeners.count who) o := by
  induction history generalizing l listeners with
  | nil => rfl
  | cons c history ih =>
    have hcount : (listeners ++ c.enlists).count who = listeners.count who := by
      have hc := hothers c List.mem_cons_self
      cases c with
      | listen other =>
        have hne : ¬other = who := fun hsame => hc (congrArg Command.listen hsame)
        simp [Command.enlists, List.count_append, hne]
      | _ => simp [Command.enlists]
    have htold (o : Orientation) :
        ((listeners.map (·, o)).filter fun call => call.1 = who).map Prod.snd
          = List.replicate (listeners.count who) o := by
      simp [List.filter_map, Function.comp_def, List.map_const', List.count_eq_length_filter]
      rfl
    simp only [heard, turns, List.filter_append, List.map_append, List.flatMap_append]
    rw [ih _ _ fun c hc => hothers c (List.mem_cons_of_mem _ hc), hcount]
    congr 1
    split
    · rfl
    · simp [htold]

/-- A listener that is registered once is told the turns from then on, and nothing before. -/
theorem told_since (l : Layer α) {who : ListenerId} {before later : List (Command α)}
    (hothers : ∀ c ∈ before ++ later, c ≠ .listen who) :
    ((l.heard [] (before ++ .listen who :: later)).filter fun call => call.1 = who).map Prod.snd
      = (l.after (before ++ [.listen who])).turns later := by
  have hbefore : ∀ c ∈ before, c ≠ .listen who := fun c hc => hothers c (List.mem_append_left _ hc)
  have hlater : ∀ c ∈ later, c ≠ .listen who := fun c hc => hothers c (List.mem_append_right _ hc)
  let earlier := before.flatMap Command.enlists
  have hearlier : earlier.count who = 0 := by
    rw [List.count_eq_zero]
    intro hmem
    obtain ⟨c, hc, hwho⟩ := List.mem_flatMap.1 hmem
    cases c with
    | listen other =>
      obtain rfl := List.mem_singleton.1 hwho
      exact hbefore _ hc rfl
    | _ => cases hwho
  have hsplit : l.heard [] (before ++ .listen who :: later) = l.heard [] before ++
      (l.after (before ++ [.listen who])).heard (earlier ++ [who]) later := by
    have hsilent (l : Layer α) (listeners : List ListenerId) :
        l.heard listeners [.listen who] = [] := by
      have hsame : ((Command.listen who).perform l).2.orientation = l.orientation := rfl
      simp [heard, hsame]
    rw [show before ++ .listen who :: later = (before ++ [.listen who]) ++ later by simp, heard_append,
      heard_append, hsilent, List.append_nil, List.nil_append, List.flatMap_append]
    rfl
  rw [hsplit, List.filter_append, List.map_append, told_turns l [] hbefore, told_turns _ _ hlater,
    List.count_append, hearlier]
  simp

/-! ## Gates follow the orientation -/

theorem gated_create (id : EngineId) (options : EngineOptions) (width height : α) :
    (Layer.create id options width height).Gated where
  registered := (createBox_passes (.create id options) _ _).1
  issued _ _ hc := by cases hc
  enabled _ _ _ hc := by cases hc

/-- An engine does not turn its layer. -/
theorem orientation_engine (l : Layer α) (command : Engine.Command α) :
    ((Command.engine command).perform l).2.orientation = l.orientation := by
  refine Command.perform_ensures (P := fun l' => l'.orientation = l.orientation) ?_
  refine ensures_bind (ensures_mapError (ensures_onPart ?_))
  exact (ensures_run command.run l.engine).mono (fun _ _ _ => ensures_pure rfl) fun _ _ _ => rfl

theorem Gated.setOrientation_perform (h : l.Gated) (o : Orientation) :
    ((Command.setOrientation o).perform l).1 = .ok .done ∧
      ((Command.setOrientation o).perform l).2.orientation = o := by
  have hrun : (Command.setOrientation o).run.Ensures l
      (fun r l' => r = .done ∧ l'.orientation = o) (fun _ _ => False) :=
    ensures_bind ((h.orient o).mono (fun _ _ horiented => ensures_pure ⟨rfl, horiented.2⟩)
      fun _ _ hfalse => hfalse)
  unfold Command.perform
  unfold Ensures at hrun
  cases hend : (Command.setOrientation o).run l with
  | ok r l' => simpa [hend] using hrun
  | error err l' => simp [hend] at hrun

/-- After every history in which nobody goes past the layer to switch a constraint that the layer
knows, a constraint made through the layer is enabled exactly if it has no gate or its gate is
the present orientation, as long as it is registered. Setting the orientation succeeds. After a
turn, gated constraints that the layer knows are registered. Every turn has been told once to
those that listened by then, so a listener has been told the turns since it was registered. -/
theorem gates_follow_orientation (id : EngineId) (options : EngineOptions) (width height : α)
    (hrespected : (Layer.create id options width height).Respected history) :
    let l₀ : Layer α := .create id options width height
    let l := l₀.after history
    (∀ c gate entry, (c, gate) ∈ l₀.made history → l.engine.constraints.entries.get? c = some entry →
      (entry.enabled = true ↔ ∀ o ∈ gate, o = l.orientation)) ∧
    (∀ o, ((Command.setOrientation o).perform l).1 = .ok .done ∧
      ((Command.setOrientation o).perform l).2.orientation = o) ∧
    (∀ c : Command α, (c.perform l).2.orientation ≠ l.orientation →
      ∀ d gate, (c.perform l).2.constraints.get? d = some (some gate) →
        ∃ entry, (c.perform l).2.engine.constraints.entries.get? d = some entry) ∧
    l.calls = l₀.heard [] history ∧
    (∀ before who later, history = before ++ .listen who :: later →
      (∀ c ∈ before ++ later, c ≠ .listen who) →
        (l.calls.filter fun call => call.1 = who).map Prod.snd
          = (l₀.after (before ++ [.listen who])).turns later) := by
  intro l₀ l
  have hgated₀ : l₀.Gated := gated_create id options width height
  have hgated : l.Gated := (hgated₀.follows_after hrespected).gated
  have hcalls : l.calls = l₀.heard [] history := hgated₀.calls_after hrespected
  refine ⟨fun c gate entry hmade hentry => ?_, hgated.setOrientation_perform, fun c hnew => ?_,
    hcalls, ?_⟩
  · rw [hgated.enabled c gate entry (hgated₀.tracked_made hrespected hmade hentry) hentry]
    cases gate <;> simp
  · by_cases hc : l.Respects c
    · exact (hgated.perform hc).reached hnew
    · simp only [Respects, not_forall] at hc
      obtain ⟨id, enabled, rfl, -⟩ := hc
      exact absurd (orientation_engine l _) hnew
  · rintro before who later rfl hothers
    exact hcalls ▸ told_since l₀ hothers

/-- A constraint for portrait and one for landscape. The layer is turned, the one for landscape is
removed past the layer, and another turn finds that it is gone. -/
theorem gates_follow_orientation_removed :
    let c (index : Nat) : ConstraintId := ⟨⟨0⟩, index⟩
    let wide (width : Rat) : Definition Rat := ⟨.ofUnknown ⟨⟨0⟩, 4⟩, .equal, .ofConstant width, .p1⟩
    let history : List (Command Rat) := [.addElement ⟨0, 0, 10, 10⟩ .p2,
      .constrain (some .portrait) (wide 20), .constrain (some .landscape) (wide 30), .listen ⟨5⟩,
      .setOrientation .portrait, .engine (.removeConstraint (c 1)), .setOrientation .landscape]
    let l : Layer Rat := .create ⟨0⟩ ⟨true, 100⟩ 800 600
    l.Respected history ∧ (l.after history).calls = l.heard [] history ∧
      (l.after history).calls = [(⟨5⟩, .portrait), (⟨5⟩, .landscape)] ∧
      (l.after history).constraints.keys = [c 0] ∧
      (l.after history).engine.constraints.entries.values.map ConstraintEntry.enabled = [false] := by
  intro c wide history l
  have hrespected : l.Respected history := respected_of_forall (by simp [history])
  exact ⟨hrespected, (gates_follow_orientation ⟨0⟩ ⟨true, 100⟩ 800 600 hrespected).2.2.2.1,
    by decide +kernel, by decide +kernel, by decide +kernel⟩

end BoxLayout.Layer
