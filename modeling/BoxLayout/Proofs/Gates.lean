-- SUMMARY: Gated constraints are enabled exactly in their orientation, whatever is done to a layer and to its engine.
import BoxLayout.Layer.Command
import BoxLayout.Proofs.Inheritance

/-!
# Gates

A layer knows the constraints that were made through it, its engine knows which of them are
enabled, and both are changed by different calls. The gates are right after every call as long
as nobody else switches a constraint that the layer knows: what a constraint's entry says about
being enabled is inherited through all other calls, also if the engine loses its solver on the
way.

A change of orientation goes through the gates one by one, while the layer still has the old
orientation. A constraint that is gone by then is no error. It is forgotten.
-/

namespace BoxLayout.Layer

open Attempt

variable {α : Type} {l l' l'' : Layer α} {e' : Engine α} {c : ConstraintId} {o : Orientation}

/-! ## What a layer keeps -/

section

variable [Scalar α]

/-- The layer and its engine agree about the constraints that the layer knows. -/
structure Gated (l : Layer α) : Prop where
  registered : l.engine.Registered
  issued : ∀ c gate, l.constraints.get? c = some gate →
    c.owner = l.engine.id ∧ c.index < l.engine.constraints.next
  /-- A constraint is enabled exactly if its gate, if it has one, is the present orientation. -/
  enabled : ∀ c gate entry, l.constraints.get? c = some gate →
    l.engine.constraints.entries.get? c = some entry →
      entry.enabled = gate.all fun o => o = l.orientation

/-- What becomes of a layer in which the gates are right. -/
structure Follows (l l' : Layer α) : Prop where
  gated : l'.Gated
  inherits : l.engine.Inherits l'.engine fun _ => True
  /-- A constraint that was there before and still is has not been forgotten. -/
  tracked : ∀ c entry, c.index < l.engine.constraints.next →
    l'.engine.constraints.entries.get? c = some entry → l'.constraints.get? c = l.constraints.get? c

/-- The layer has the same orientation and listeners as before, and nobody was told anything. -/
structure Quiet (l l' : Layer α) : Prop extends Follows l l' where
  orientation : l'.orientation = l.orientation
  listeners : l'.listeners = l.listeners
  calls : l'.calls = l.calls

/-- The layer has turned to another orientation and told all listeners. -/
structure Turned (l l' : Layer α) (o : Orientation) : Prop extends Follows l l' where
  new : l.orientation ≠ o
  orientation : l'.orientation = o
  listeners : l'.listeners = l.listeners
  calls : l'.calls = l.calls ++ l.listeners.map (·, o)
  /-- Gated constraints that are no longer registered have been forgotten. -/
  reached : ∀ c gate, l'.constraints.get? c = some (some gate) →
    ∃ entry, l'.engine.constraints.entries.get? c = some entry

theorem Follows.refl (h : l.Gated) : l.Follows l := ⟨h, .refl _, fun _ _ _ _ => rfl⟩

theorem Follows.trans (h : l.Follows l') (h' : l'.Follows l'') : l.Follows l'' where
  gated := h'.gated
  inherits := h.inherits.trans h'.inherits
  tracked c entry hindex hc := by
    have hindex' := Nat.lt_of_lt_of_le hindex h.inherits.next
    obtain ⟨entry', hc', -⟩ := h'.inherits.kept c entry hindex' hc
    exact (h'.tracked c entry hindex' hc).trans (h.tracked c entry' hindex hc')

theorem Quiet.refl (h : l.Gated) : l.Quiet l := ⟨.refl h, rfl, rfl, rfl⟩

theorem Quiet.trans (h : l.Quiet l') (h' : l'.Quiet l'') : l.Quiet l'' where
  toFollows := h.toFollows.trans h'.toFollows
  orientation := h'.orientation.trans h.orientation
  listeners := h'.listeners.trans h.listeners
  calls := h'.calls.trans h.calls

theorem Quiet.trans_turned (h : l.Quiet l') (h' : l'.Turned l'' o) : l.Turned l'' o where
  toFollows := h.toFollows.trans h'.toFollows
  new := by
    rw [← h.orientation]
    exact h'.new
  orientation := h'.orientation
  listeners := h'.listeners.trans h.listeners
  calls := by rw [h'.calls, h.calls, h.listeners]
  reached := h'.reached

/-- What an engine does to constraints that the layer does not know is none of its business. -/
theorem Gated.quiet_engine (h : l.Gated) {touched : ConstraintId → Prop} (hregistered : e'.Registered)
    (hinherits : l.engine.Inherits e' touched) (hfree : ∀ c, touched c → l.constraints.get? c = none) :
    l.Quiet { l with engine := e' } where
  gated := by
    refine ⟨hregistered, fun c gate hgate => ?_, fun c gate entry' hgate hc' => ?_⟩
    · obtain ⟨howner, hindex⟩ := h.issued c gate hgate
      exact ⟨howner.trans hinherits.id.symm, Nat.lt_of_lt_of_le hindex hinherits.next⟩
    · obtain ⟨entry, hc, hsame⟩ := hinherits.kept c entry' (h.issued c gate hgate).2 hc'
      have huntouched : ¬touched c := fun htouched => by
        rw [hfree c htouched] at hgate
        cases hgate
      rw [hsame huntouched]
      exact h.enabled c gate entry hgate hc
  inherits := hinherits.mono fun _ _ => trivial
  tracked _ _ _ _ := rfl
  orientation := rfl
  listeners := rfl
  calls := rfl

/-! ## Quiet attempts -/

section

variable {β : Type}

/-- However the attempt ends, it has been quiet. -/
def Stays (m : Attempt LayerError (Layer α) β) (l : Layer α) : Prop :=
  m.Ensures l (fun _ l' => l.Quiet l') (fun _ l' => l.Quiet l')

theorem stays_pure (h : l.Gated) (b : β) : Stays (pure b) l := ensures_pure (.refl h)

theorem stays_ofExcept (h : l.Gated) (x : Except LayerError β) : Stays (ofExcept x) l :=
  ensures_ofExcept (fun _ _ => .refl h) fun _ _ => .refl h

theorem Stays.bind {γ : Type} {m : Attempt LayerError (Layer α) β}
    {f : β → Attempt LayerError (Layer α) γ} (hm : Stays m l)
    (hf : ∀ b l', l'.Gated → Stays (f b) l') : Stays (m >>= f) l := by
  refine ensures_bind (hm.mono (fun b l' hquiet => ?_) fun _ _ hquiet => hquiet)
  exact (hf b l' hquiet.gated).mono (fun _ _ h => hquiet.trans h) fun _ _ h => hquiet.trans h

theorem Stays.forM {xs : List β} {f : β → Attempt LayerError (Layer α) PUnit} (h : l.Gated)
    (hf : ∀ x l', l'.Gated → Stays (f x) l') : Stays (xs.forM f) l := by
  refine ensures_forM (I := fun _ l' => l.Quiet l') (fun _ x _ l' _ hquiet => ?_) (.refl h)
  exact (hf x l' hquiet.gated).mono (fun _ _ h => hquiet.trans h) fun _ _ h => hquiet.trans h

theorem Gated.onEngine (h : l.Gated) {m : Attempt EngineError (Engine α) β}
    {touched : ConstraintId → Prop} (hm : Engine.Passes m l.engine touched)
    (hfree : ∀ c, touched c → l.constraints.get? c = none) :
    Stays (Layer.onEngine m) l := by
  refine ensures_mapError (ensures_onPart (hm.mono ?_ ?_)) <;>
  · rintro - e' ⟨hregistered, hinherits⟩
    exact h.quiet_engine hregistered hinherits hfree

/-- Attempts on the engine that switch nothing. -/
theorem Gated.onEngine_free (h : l.Gated) {m : Attempt EngineError (Engine α) β}
    (hm : Engine.Passes m l.engine fun _ => False) : Stays (Layer.onEngine m) l :=
  h.onEngine hm fun _ hc => hc.elim

end

/-! ### Elements -/

theorem Gated.suggest (h : l.Gated) (x : VariableId) (target : α) :
    Stays (Layer.onEngine (Engine.suggest x target)) l :=
  h.onEngine_free (h.registered.suggest_passes x target)

theorem Gated.read (h : l.Gated) (x : VariableId) : Stays (Layer.onEngine (Engine.read x)) l :=
  h.onEngine_free (h.registered.read_passes x)

theorem Gated.move (h : l.Gated) (id : ElementId) (b : Box α) : Stays (Layer.move id b) l := by
  refine ensures_get_bind ((stays_ofExcept h _).bind fun vars l h => ?_)
  refine (h.suggest vars.x b.x).bind fun _ l h => ?_
  refine (h.suggest vars.y b.y).bind fun _ l h => ?_
  refine (h.suggest vars.width b.width).bind fun _ l h => ?_
  exact h.suggest vars.height b.height

theorem Gated.bounds (h : l.Gated) (id : ElementId) : Stays (Layer.bounds id) l := by
  refine ensures_get_bind ((stays_ofExcept h _).bind fun vars l h => ?_)
  refine (h.read vars.x).bind fun x l h => ?_
  refine (h.read vars.y).bind fun y l h => ?_
  refine (h.read vars.width).bind fun width l h => ?_
  exact (h.read vars.height).bind fun height l h => stays_pure h _

theorem Gated.boundsOf (h : l.Gated) (ids : List ElementId) : Stays (Layer.boundsOf ids) l := by
  induction ids generalizing l with
  | nil => exact stays_pure h _
  | cons id ids ih =>
    exact (h.bounds id).bind fun b l h => (ih h).bind fun _ l h => stays_pure h _

theorem Gated.update (h : l.Gated) : Stays Layer.update l := by
  refine (h.onEngine_free h.registered.takeDirty_passes).bind fun dirty l h => ?_
  cases dirty with
  | true => exact ensures_get_bind ((h.boundsOf _).bind fun _ l h => stays_pure h _)
  | false => exact stays_pure h _

theorem createBox_passes {e : Engine α} (h : e.Registered) (b : Box α) (p : Priority) :
    (createBox b p e).2.Registered ∧ e.Inherits (createBox b p e).2 fun _ => False := by
  obtain ⟨hx, hinheritsX⟩ := h.createVariable_passes b.x p
  obtain ⟨hy, hinheritsY⟩ := hx.createVariable_passes b.y p
  obtain ⟨hwidth, hinheritsWidth⟩ := hy.createVariable_passes b.width p
  obtain ⟨hheight, hinheritsHeight⟩ := hwidth.createVariable_passes b.height p
  exact ⟨hheight, hinheritsX.trans (hinheritsY.trans (hinheritsWidth.trans hinheritsHeight))⟩

/-- Which elements there are does not matter to the gates. -/
theorem Quiet.withElements (h : l.Quiet l') (elements : OrderedMap ElementId (Box VariableId))
    (nextElement : Nat) : l.Quiet { l' with elements := elements, nextElement := nextElement } :=
  ⟨⟨⟨h.gated.registered, h.gated.issued, h.gated.enabled⟩, h.inherits, h.tracked⟩,
    h.orientation, h.listeners, h.calls⟩

theorem Gated.addElement (h : l.Gated) (b : Box α) (p : Priority) :
    l.Quiet (Layer.addElement b p l).2 := by
  obtain ⟨hregistered, hinherits⟩ := createBox_passes h.registered b p
  exact (h.quiet_engine hregistered hinherits fun _ hc => hc.elim).withElements _ _

/-- A constraint that is released is gone from the engine, so it may be forgotten. -/
theorem Gated.release (h : l.Gated) (c : ConstraintId) : Stays (Layer.release c) l := by
  refine ensures_modify_bind (ensures_mapError (ensures_onPart ?_))
  have hquiet (e' : Engine α) (hremoved : (e'.Registered ∧ l.engine.Inherits e' fun _ => False) ∧
      e'.constraints.entries.get? c = none) : l.Quiet { forget c l with engine := e' } := by
    obtain ⟨⟨hregistered, hinherits⟩, hgone⟩ := hremoved
    have hkept := h.quiet_engine hregistered hinherits fun _ hc => hc.elim
    have hforgotten {d : ConstraintId} {gate : Option Orientation}
        (hd : (l.constraints.erase c).get? d = some gate) : l.constraints.get? d = some gate := by
      rw [OrderedMap.get?_erase] at hd
      split at hd
      · cases hd
      · exact hd
    refine ⟨⟨⟨hregistered, fun d gate hd => ?_, fun d gate entry hd hentry => ?_⟩,
      hkept.inherits, fun d entry _ hentry => ?_⟩, rfl, rfl, rfl⟩
    · exact hkept.gated.issued d gate (hforgotten hd)
    · exact hkept.gated.enabled d gate entry (hforgotten hd) hentry
    · refine (OrderedMap.get?_erase _ _ _).trans (if_neg ?_)
      rintro rfl
      change e'.constraints.entries.get? d = some entry at hentry
      rw [hgone] at hentry
      cases hentry
  exact (h.registered.removeConstraint_ensures c).mono (fun _ e' hremoved => hquiet e' hremoved)
    fun _ e' hremoved => hquiet e' hremoved

theorem Gated.removeElement (h : l.Gated) (id : ElementId) : Stays (Layer.removeElement id) l := by
  refine ensures_get_bind ((stays_ofExcept h _).bind fun vars l h => ?_)
  refine (Stays.forM h fun x l h => ?_).bind fun _ l h => ?_
  · refine Stays.bind (h.onEngine_free ?_) fun mentioning l h => Stays.forM h fun c l h => h.release c
    exact ensures_get_bind (ensures_ofExcept (fun _ _ => ⟨h.registered, .refl _⟩)
      fun _ _ => ⟨h.registered, .refl _⟩)
  · refine (Stays.forM h fun x l h => ?_).bind fun _ l h => ?_
    · exact h.onEngine_free (h.registered.removeVariable_passes x)
    · exact ensures_modify ((Quiet.refl h).withElements _ _)

/-! ### Constraints -/

/-- A constraint made through a layer is known to it from then on, with its gate. -/
theorem Gated.constrain (h : l.Gated) (gate : Option Orientation) (d : Definition α) :
    (Layer.constrain gate d).Ensures l
      (fun c l' => l.Quiet l' ∧ l'.constraints.get? c = some gate) (fun _ l' => l.Quiet l') := by
  refine ensures_get_bind (ensures_bind (ensures_mapError (ensures_onPart ?_)))
  refine (h.registered.createConstraint_ensures d _).mono (fun c e' hcreated => ?_) fun _ e' hsame => ?_
  · obtain ⟨⟨hregistered, hinherits⟩, rfl, hnext, entry, hentry, henabled⟩ := hcreated
    let new : ConstraintId := l.engine.constraints.issue.1
    have hkept := h.quiet_engine hregistered hinherits fun _ hc => hc.elim
    have hget (c : ConstraintId) : (l.constraints.insert new gate).get? c
        = if c = new then some gate else l.constraints.get? c := OrderedMap.get?_insert _ _ _ _
    refine ensures_modify_bind (ensures_pure
      ⟨⟨⟨⟨hregistered, ?_, ?_⟩, hkept.inherits, ?_⟩, rfl, rfl, rfl⟩, ?_⟩)
    · intro c g hc
      change (l.constraints.insert new gate).get? c = some g at hc
      rw [hget] at hc
      split at hc
      · next hnew =>
        subst hnew
        exact ⟨h.registered.constraintsOwner.trans hinherits.id.symm, hnext⟩
      · exact hkept.gated.issued c g hc
    · intro c g entry' hc hentry'
      change (l.constraints.insert new gate).get? c = some g at hc
      rw [hget] at hc
      split at hc
      · next hnew =>
        subst hnew
        obtain rfl := Option.some.inj hc
        obtain rfl := Option.some.inj (hentry.symm.trans hentry')
        exact henabled
      · exact hkept.gated.enabled c g entry' hc hentry'
    · intro c entry' hindex _
      refine (hget c).trans (if_neg ?_)
      rintro rfl
      exact Nat.lt_irrefl _ hindex
    · exact (hget new).trans (if_pos rfl)
  · subst hsame
    exact .refl h

end

end BoxLayout.Layer
