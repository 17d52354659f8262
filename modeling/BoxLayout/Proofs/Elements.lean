-- SUMMARY: Element ids and the variables of elements are issued once, whatever is done to a layer and to its engine.
import BoxLayout.Proofs.Reach

/-!
# Elements

A layer numbers its elements as its engine numbers its handles: upwards, and never twice. An
element keeps the four variables that were issued for it, also if somebody removes them past the
layer, so no two elements ever share a variable.
-/

namespace BoxLayout

open Attempt

namespace Layer

variable {α : Type} [Scalar α] {l l' : Layer α} {e : Engine α} {id : ElementId} {vars : Box VariableId}

/-! ## New boxes -/

omit [Scalar α] in
/-- The handles that the engine issues next to a box. -/
def freshBox (e : Engine α) : Box VariableId :=
  ⟨⟨e.id, e.vars.next⟩, ⟨e.id, e.vars.next + 1⟩, ⟨e.id, e.vars.next + 2⟩, ⟨e.id, e.vars.next + 3⟩⟩

omit [Scalar α] in
theorem mem_freshBox {x : VariableId} : x ∈ (freshBox e).toList ↔
    x.owner = e.id ∧ e.vars.next ≤ x.index ∧ x.index < e.vars.next + 4 := by
  obtain ⟨owner, index⟩ := x
  simp only [freshBox, Box.toList, List.mem_cons, Handle.mk.injEq, List.not_mem_nil, or_false,
    ← and_or_left]
  refine and_congr_right fun _ => ?_
  omega

omit [Scalar α] in
theorem nodup_freshBox (e : Engine α) : (freshBox e).toList.Nodup := by
  simp [freshBox, Box.toList]

/-- A variable that is created takes the next handle, and stands after those that were there. -/
theorem createVariable_handles (h : e.Registered) (target : α) (p : Priority) :
    let e' := (e.createVariable target p).2
    (e.createVariable target p).1 = ⟨e.id, e.vars.next⟩ ∧ e'.id = e.id ∧
      e'.vars.next = e.vars.next + 1 ∧ e'.vars.handles = e.vars.handles ++ [⟨e.id, e.vars.next⟩] ∧
      e'.dirty = true := by
  have hvars : (e.createVariable target p).2.vars = e.vars.issue.2.put e.vars.issue.1
      (.create (.caller e.labels) e.vars.issue.1 p target) := by
    simp only [Engine.createVariable, Engine.freshLabel, Engine.markChanged, Engine.apply_vars]
  have hnew : e.vars.issue.1 ∉ e.vars.entries.keys :=
    OrderedMap.get?_eq_none_iff.1 h.unissued_var
  have hfirst : e.vars.issue.1 = ⟨e.id, e.vars.next⟩ := by
    rw [← h.varsOwner]
    rfl
  refine ⟨hfirst, (h.perform_inherits (.createVariable target p)).id, by rw [hvars]; rfl, ?_, rfl⟩
  rw [hvars, ← hfirst]
  exact (OrderedMap.keys_insert _ _ _).trans (if_neg hnew)

/-- The variables of a new box take the next handles, and stand after those that were there. -/
theorem createBox_handles (h : e.Registered) (b : Box α) (p : Priority) :
    let e' := (createBox b p e).2
    (createBox b p e).1 = freshBox e ∧ e.Reaches (fun c => c.isTame = true) e' ∧
      e'.vars.next = e.vars.next + 4 ∧ e'.vars.handles = e.vars.handles ++ (freshBox e).toList ∧
      e'.dirty = true := by
  intro e'
  let e₁ := (e.createVariable b.x p).2
  let e₂ := (e₁.createVariable b.y p).2
  let e₃ := (e₂.createVariable b.width p).2
  have h₁ : e₁.Registered := h.after [.createVariable b.x p]
  have h₂ : e₂.Registered := h₁.after [.createVariable b.y p]
  have h₃ : e₃.Registered := h₂.after [.createVariable b.width p]
  obtain ⟨hx, hid₁, hnext₁, hhandles₁, -⟩ := createVariable_handles h b.x p
  obtain ⟨hy, hid₂, hnext₂, hhandles₂, -⟩ := createVariable_handles h₁ b.y p
  obtain ⟨hwidth, hid₃, hnext₃, hhandles₃, -⟩ := createVariable_handles h₂ b.width p
  obtain ⟨hheight, hid₄, hnext₄, hhandles₄, hdirty⟩ := createVariable_handles h₃ b.height p
  have hreach (e : Engine α) (target : α) :
      e.Reaches (fun c => c.isTame = true) (e.createVariable target p).2 :=
    .single (c := .createVariable target p) rfl
  have hbox : (createBox b p e).1 = freshBox e := by
    change Box.mk (e.createVariable b.x p).1 (e₁.createVariable b.y p).1
      (e₂.createVariable b.width p).1 (e₃.createVariable b.height p).1 = _
    rw [hx, hy, hwidth, hheight, hid₃, hid₂, hid₁, hnext₃, hnext₂, hnext₁]
    rfl
  refine ⟨hbox, ?_, ?_, ?_, hdirty⟩
  · exact (hreach e _).trans ((hreach e₁ _).trans ((hreach e₂ _).trans (hreach e₃ _)))
  · exact hnext₄.trans (by rw [hnext₃, hnext₂, hnext₁])
  · refine hhandles₄.trans ?_
    rw [hhandles₃, hhandles₂, hhandles₁, hid₃, hid₂, hid₁, hnext₃, hnext₂, hnext₁]
    simp [freshBox, Box.toList]

/-! ## Elements and their variables -/

/-- Elements and their variables have been issued, each to one element only. -/
structure Housed (l : Layer α) : Prop where
  registered : l.engine.Registered
  numbered : ∀ id vars, l.elements.get? id = some vars → id.number < l.nextElement
  issued : ∀ id vars, l.elements.get? id = some vars →
    ∀ x ∈ vars.toList, x.owner = l.engine.id ∧ x.index < l.engine.vars.next
  distinct : ∀ id vars, l.elements.get? id = some vars → vars.toList.Nodup
  apart : ∀ id vars id' vars', l.elements.get? id = some vars → l.elements.get? id' = some vars' →
    id ≠ id' → ∀ x ∈ vars.toList, x ∉ vars'.toList

/-- Going on with some of the elements. -/
theorem Housed.of_subset (h : l.Housed) {allowed : Engine.Command α → Prop}
    (hreach : l.engine.Reaches allowed l'.engine) (hnext : l.nextElement ≤ l'.nextElement)
    (hsub : ∀ id vars, l'.elements.get? id = some vars → l.elements.get? id = some vars) :
    l'.Housed := by
  obtain ⟨hregistered, hid, hgrown⟩ := hreach.registered h.registered
  refine ⟨hregistered, fun id vars hvars => ?_, fun id vars hvars x hx => ?_,
    fun id vars hvars => h.distinct id vars (hsub id vars hvars),
    fun id vars id' vars' hvars hvars' => h.apart id vars id' vars' (hsub _ _ hvars) (hsub _ _ hvars')⟩
  · exact Nat.lt_of_lt_of_le (h.numbered id vars (hsub id vars hvars)) hnext
  · obtain ⟨howner, hindex⟩ := h.issued id vars (hsub id vars hvars) x hx
    exact ⟨howner.trans hid.symm, Nat.lt_of_lt_of_le hindex hgrown⟩

theorem Housed.leads (h : l.Housed) {allowed : Engine.Command α → Prop} (hl : l.Leads allowed l') :
    l'.Housed :=
  h.of_subset hl.engine (Nat.le_of_eq hl.nextElement.symm) fun id vars hvars => by
    rwa [hl.elements] at hvars

/-! ### Adding an element -/

/-- A new element has the next number, and its box the next handles. -/
theorem addElement_eq (h : l.engine.Registered) (b : Box α) (p : Priority) :
    addElement b p l = (⟨l.nextElement⟩, { l with
      engine := (createBox b p l.engine).2
      elements := l.elements.insert ⟨l.nextElement⟩ (freshBox l.engine)
      nextElement := l.nextElement + 1 }) := by
  have hbox := (createBox_handles h b p).1
  rw [← hbox]
  rfl

theorem Housed.addElement (h : l.Housed) (b : Box α) (p : Priority) :
    (Layer.addElement b p l).2.Housed := by
  obtain ⟨-, hreach, hnext, -⟩ := createBox_handles h.registered b p
  obtain ⟨hregistered, hid, -⟩ := hreach.registered h.registered
  rw [addElement_eq h.registered]
  have hget (id : ElementId) (vars : Box VariableId)
      (hvars : (l.elements.insert ⟨l.nextElement⟩ (freshBox l.engine)).get? id = some vars) :
      id = ⟨l.nextElement⟩ ∧ vars = freshBox l.engine ∨ l.elements.get? id = some vars :=
    OrderedMap.get?_insert_cases hvars
  -- what was issued before is not in the new box
  have hold {id : ElementId} {vars : Box VariableId} (hvars : l.elements.get? id = some vars)
      (x : VariableId) (hx : x ∈ vars.toList) : x ∉ (freshBox l.engine).toList := fun hfresh =>
    absurd (h.issued id vars hvars x hx).2 (Nat.not_lt.2 (mem_freshBox.1 hfresh).2.1)
  refine ⟨hregistered, fun id vars hvars => ?_, fun id vars hvars x hx => ?_, fun id vars hvars => ?_,
    fun id vars id' vars' hvars hvars' hne x hx hx' => ?_⟩
  · rcases hget id vars hvars with ⟨rfl, -⟩ | hvars
    · exact Nat.lt_succ_self _
    · exact Nat.lt_succ_of_lt (h.numbered id vars hvars)
  · rw [hid, hnext]
    rcases hget id vars hvars with ⟨-, rfl⟩ | hvars
    · exact ⟨(mem_freshBox.1 hx).1, (mem_freshBox.1 hx).2.2⟩
    · obtain ⟨howner, hindex⟩ := h.issued id vars hvars x hx
      exact ⟨howner, by omega⟩
  · rcases hget id vars hvars with ⟨-, rfl⟩ | hvars
    · exact nodup_freshBox _
    · exact h.distinct id vars hvars
  · rcases hget id vars hvars with ⟨rfl, rfl⟩ | hvars <;>
      rcases hget id' vars' hvars' with ⟨rfl, rfl⟩ | hvars'
    · exact hne rfl
    · exact hold hvars' x hx' hx
    · exact hold hvars x hx hx'
    · exact h.apart id vars id' vars' hvars hvars' hne x hx hx'

/-! ### Other calls -/

/-- Removing an element takes nothing but that element away, even if it fails. -/
theorem removeElement_leads (id : ElementId) : (Layer.removeElement id).Ensures l
    (fun _ l' => ∃ l₁, l.Leads (fun _ => True) l₁ ∧
      l' = { l₁ with elements := l₁.elements.erase id })
    (fun _ => l.Leads fun _ => True) := by
  have htame {β : Type} {m : Attempt LayerError (Layer α) β} {l : Layer α} (hm : Tame m l) :
      Takes (fun _ => True) m l := hm.mono fun _ _ => trivial
  have hreleases (x : VariableId) (l : Layer α) : Takes (fun _ => True) (do
      let mentioning ← onEngine (do ofExcept ((← get).referencing x))
      mentioning.forM release : Attempt LayerError (Layer α) PUnit) l :=
    (takes_onEngine (.referencing x) (f := .handles) rfl trivial).bind fun mentioning l =>
      Takes.forM fun c l => htame (tame_release c)
  have hremoves (x : VariableId) (l : Layer α) :
      Takes (fun _ => True) (onEngine (Engine.removeVariable x)) l :=
    takes_onEngine (.removeVariable x) (f := fun _ => .done) rfl trivial
  refine ensures_get_bind (ensures_bind (Ensures.mono (takes_ofExcept _) ?_ fun _ _ h => h))
  intro vars l₁ h₁
  refine ensures_bind (Ensures.mono (Takes.forM hreleases) ?_ fun _ _ h => h₁.trans h)
  intro _ l₂ h₂
  refine ensures_bind (Ensures.mono (Takes.forM hremoves) ?_ fun _ _ h => h₁.trans (h₂.trans h))
  intro _ l₃ h₃
  exact ensures_modify ⟨l₃, h₁.trans (h₂.trans h₃), rfl⟩

theorem leads_update : l.Leads (fun _ => True) (Command.update.perform l).2 := by
  have hupdate : Takes (fun _ => True) (Layer.update (α := α)) l := by
    refine (takes_onEngine .takeDirty (f := .flag) rfl trivial).bind fun dirty l => ?_
    cases dirty with
    | false => exact takes_pure _
    | true =>
      refine ensures_get_bind (Takes.bind ?_ fun _ _ => takes_pure _)
      exact (views_boundsOf _).mono fun _ _ => trivial
  exact Command.perform_ensures (hupdate.bind fun _ _ => takes_pure _)

theorem leads_engine (c : Engine.Command α) : l.Leads (· = c) ((Command.engine c).perform l).2 :=
  Command.perform_ensures (Takes.bind (takes_onEngine c (f := fun r => r) (bind_pure _).symm rfl)
    fun _ _ => takes_pure _)

theorem Housed.perform (h : l.Housed) (c : Command α) :
    (c.perform l).2.Housed ∧ l.nextElement ≤ (c.perform l).2.nextElement := by
  have hleads {allowed : Engine.Command α → Prop} (hl : l.Leads allowed (c.perform l).2) :
      (c.perform l).2.Housed ∧ l.nextElement ≤ (c.perform l).2.nextElement :=
    ⟨h.leads hl, Nat.le_of_eq hl.nextElement.symm⟩
  cases c with
  | addElement b p => exact ⟨h.addElement b p, Nat.le_succ _⟩
  | removeElement id =>
    refine Command.perform_ensures (P := fun l' => l'.Housed ∧ l.nextElement ≤ l'.nextElement)
      (ensures_bind ((removeElement_leads id).mono ?_ ?_))
    · rintro - l' ⟨l₁, hl, rfl⟩
      refine ensures_pure ⟨h.of_subset hl.engine (Nat.le_of_eq hl.nextElement.symm) ?_,
        Nat.le_of_eq hl.nextElement.symm⟩
      intro id' vars hvars
      rw [OrderedMap.get?_erase, hl.elements] at hvars
      split at hvars
      · cases hvars
      · exact hvars
    · exact fun _ l' hl => ⟨h.leads hl, Nat.le_of_eq hl.nextElement.symm⟩
  | update => exact hleads leads_update
  | engine c => exact hleads (leads_engine c)
  | _ => exact hleads (leads_plain rfl)

theorem Housed.after (h : l.Housed) (history : List (Command α)) :
    (l.after history).Housed ∧ l.nextElement ≤ (l.after history).nextElement := by
  induction history generalizing l with
  | nil => exact ⟨h, Nat.le_refl _⟩
  | cons c history ih =>
    obtain ⟨h', hnext⟩ := h.perform c
    obtain ⟨hafter, hnext'⟩ := ih h'
    exact ⟨hafter, Nat.le_trans hnext hnext'⟩

theorem housed_create (id : EngineId) (options : EngineOptions) (width height : α) :
    (Layer.create id options width height).Housed where
  registered := (createBox_passes (.create id options) _ _).1
  numbered _ _ h := by cases h
  issued _ _ h := by cases h
  distinct _ _ h := by cases h
  apart _ _ _ _ h := by cases h

/-- An element that was there once is not issued again. -/
theorem Housed.addElement_ne (h : l.Housed) (hid : id.number < l.nextElement)
    (history : List (Command α)) (b : Box α) (p : Priority) :
    ((Command.addElement b p).perform (l.after history)).1 ≠ .ok (.element id) := by
  intro hanswer
  have hnext := (h.after history).2
  have hissued : ElementId.mk (l.after history).nextElement = id :=
    Reply.element.inj (Except.ok.inj hanswer)
  rw [← hissued] at hid
  exact absurd hid (Nat.not_lt.2 hnext)

end Layer

end BoxLayout
