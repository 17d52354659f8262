-- SUMMARY: An update that answers nothing hides nothing: elements and boxes are those of the last frame.
import BoxLayout.Proofs.Removal
import BoxLayout.Proofs.Stability
import BoxLayout.Scalar.Exact

/-!
# Frames

An update takes the mark that something changed before it looks at the boxes, and answers nothing
if there is no mark. The mark is set by whatever writes to a registry. Reads never set it, though
they may rebuild the solver and bring values up to date, and need not: what they show stays the
same by itself.

So as long as nobody else takes the mark, it is set whenever the layer shows something else than
in the last frame.
-/

namespace BoxLayout

open Attempt

namespace Engine

variable {α : Type} [Scalar α] {e e' : Engine α} {c : Command α} {x : VariableId}

/-! ## The mark and the values -/

/-- Nothing else is shown unless the mark is set. -/
def Marks (e e' : Engine α) : Prop :=
  e'.dirty = true ∨ e'.dirty = e.dirty ∧ ∀ x, e'.shown x = e.shown x

theorem Marks.trans {e'' : Engine α} (h : e.Marks e') (h' : e'.Marks e'') : e.Marks e'' := by
  rcases h' with h' | ⟨hdirty', hshown'⟩
  · exact .inl h'
  rcases h with h | ⟨hdirty, hshown⟩
  · exact .inl (hdirty'.trans h)
  · exact .inr ⟨hdirty'.trans hdirty, fun x => (hshown' x).trans (hshown x)⟩

theorem Registered.marks_perform (h : e.Registered) (hc : c ≠ .takeDirty) :
    e.Marks (c.perform e).2 := by
  have hstep := h.step c
  generalize (c.perform e).2 = e' at hstep ⊢
  cases hstep with
  | stay => exact .inr ⟨rfl, fun _ => rfl⟩
  | carry => exact .inl rfl
  | read =>
    have hdirty : e.refresh.bare.dirty = e.bare.dirty := congrArg Engine.dirty (bare_refresh e)
    exact .inr ⟨hdirty, shown_refresh e⟩
  | takeDirty => exact absurd rfl hc
  | listen | stopListening => exact .inr ⟨rfl, shown_congr (e := e) rfl rfl⟩

theorem mem_handles_write {w : Write α} (hx : x ∈ e.vars.handles) (hw : w ≠ .forget x) :
    x ∈ (e.write w).vars.handles := by
  rw [write_vars]
  cases w with
  | want y p target => exact OrderedMap.mem_keys_insert.2 (.inr hx)
  | move y target =>
    cases hy : e.vars.entries.get? y with
    | none => rwa [Write.record_move_unknown hy]
    | some entry =>
      rw [Write.record_move hy]
      exact OrderedMap.mem_keys_insert.2 (.inr hx)
  | forget y =>
    have hxy : x ≠ y := fun hsame => hw (hsame ▸ rfl)
    exact OrderedMap.mem_keys_erase.2 ⟨hxy, hx⟩
  | switch c enabled =>
    cases hc : e.constraints.entries.get? c with
    | none => rwa [Write.record_switch_unknown hc]
    | some entry => rwa [Write.record_switch hc]
  | state | retract => exact hx

/-- A variable stays registered unless it is removed. -/
theorem Registered.mem_handles_perform (h : e.Registered) (hx : x ∈ e.vars.handles)
    (hc : c ≠ .removeVariable x) : x ∈ (c.perform e).2.vars.handles := by
  have hstep := h.step c
  generalize (c.perform e).2 = e' at hstep ⊢
  cases hstep with
  | @carry c w ws _ hws =>
    have hvars : (e.carryOut (w :: ws)).vars = (e.write w).vars := hws ▸ vars_carryOut hws
    change x ∈ (e.carryOut (w :: ws)).vars.handles
    rw [hvars]
    exact mem_handles_write hx fun hw => hc ((begins_of_writes hws).removes x hw)
  | read =>
    rw [handles_refresh]
    exact hx
  | _ => exact hx

theorem shown_log (level : LogLevel) (source : LogSource) (message : String) (e : Engine α) :
    ∀ x, (e.log level source message).shown x = e.shown x :=
  shown_congr (e := e) rfl rfl

section

variable {allowed : Command α → Prop}

theorem Reaches.marks (hreach : e.Reaches allowed e') (h : e.Registered)
    (hallowed : ∀ c, allowed c → c ≠ .takeDirty) : e.Marks e' := by
  induction hreach with
  | refl => exact .inr ⟨rfl, fun _ => rfl⟩
  | call hreach hc ih =>
    exact ih.trans ((hreach.registered h).1.marks_perform (hallowed _ hc))
  | log level source message _ ih => exact ih.trans (.inr ⟨rfl, shown_log level source message _⟩)

theorem Reaches.mem_handles (hreach : e.Reaches allowed e') (h : e.Registered)
    (hallowed : ∀ c, allowed c → c ≠ .removeVariable x) (hx : x ∈ e.vars.handles) :
    x ∈ e'.vars.handles := by
  induction hreach with
  | refl => exact hx
  | call hreach hc ih => exact (hreach.registered h).1.mem_handles_perform ih (hallowed _ hc)
  | log _ _ _ _ ih => exact ih

end

/-- Tame calls set the mark if they change what is shown, and take no variable out. -/
theorem Reaches.tame (hreach : e.Reaches (fun c => c.isTame = true) e') (h : e.Registered) :
    e.Marks e' ∧ ∀ x ∈ e.vars.handles, x ∈ e'.vars.handles := by
  refine ⟨hreach.marks h ?_, fun x => hreach.mem_handles h ?_⟩ <;>
  · rintro c hc rfl
    cases hc

/-- Reads leave the mark and what is shown. -/
theorem Reaches.reads (hreach : e.Reaches (fun c => c.isRead = true) e') (h : e.Registered) :
    e'.dirty = e.dirty ∧ ∀ x, e'.shown x = e.shown x := by
  induction hreach with
  | refl => exact ⟨rfl, fun _ => rfl⟩
  | @call e' c hreach hc ih =>
    obtain ⟨y, rfl⟩ := Command.isRead_iff.1 hc
    have hstep := (hreach.registered h).1.step (.read y)
    generalize ((Command.read y).perform e').2 = e'' at hstep ⊢
    cases hstep with
    | stay => exact ih
    | carry hmutation => cases hmutation
    | read =>
      have hdirty : e'.refresh.bare.dirty = e'.bare.dirty := congrArg Engine.dirty (bare_refresh e')
      exact ⟨hdirty.trans ih.1, fun x => (shown_refresh e' x).trans (ih.2 x)⟩
  | log level source message _ ih =>
    exact ⟨ih.1, fun x => (shown_log level source message _ x).trans (ih.2 x)⟩

end Engine

namespace Layer

variable {α : Type} [Scalar α] {l l' : Layer α} {id : ElementId} {vars : Box VariableId}

/-! ## What a layer shows -/

/-- The frame that an update would answer with now. -/
def picture (l : Layer α) : List (ElementId × Box α) :=
  l.elements.entries.map fun k => (k.1, k.2.map l.engine.shown)

theorem picture_congr (helements : l'.elements = l.elements)
    (hshown : ∀ x, l'.engine.shown x = l.engine.shown x) : l'.picture = l.picture := by
  unfold picture
  rw [helements, funext hshown]

/-- The variables of elements are registered. -/
structure Furnished (l : Layer α) : Prop extends Housed l where
  furnished : ∀ id vars, l.elements.get? id = some vars →
    ∀ x ∈ vars.toList, x ∈ l.engine.vars.handles

theorem Furnished.leads (h : l.Furnished) (hl : l.Leads (fun c => c.isTame = true) l') :
    l'.Furnished := by
  refine ⟨h.toHoused.leads hl, fun id vars hvars x hx => ?_⟩
  rw [hl.elements] at hvars
  exact (hl.engine.tame h.registered).2 x (h.furnished id vars hvars x hx)

/-- What a layer shows does not change while it is only read from. -/
theorem Furnished.views (h : l.Furnished) (hl : l.Leads (fun c => c.isRead = true) l') :
    l'.Furnished ∧ l'.engine.dirty = l.engine.dirty ∧
      (∀ x, l'.engine.shown x = l.engine.shown x) ∧ l'.picture = l.picture := by
  obtain ⟨hdirty, hshown⟩ := hl.engine.reads h.registered
  exact ⟨h.leads (hl.mono fun _ => Engine.Command.isTame_of_isRead), hdirty, hshown,
    picture_congr hl.elements hshown⟩

/-! ### Looking at boxes -/

theorem read_ensures (h : l.engine.Registered) {x : VariableId} (hx : x ∈ l.engine.vars.handles) :
    (onEngine (Engine.read x)).Ensures l
      (fun v l' => l.Leads (fun c => c.isRead = true) l' ∧ v = l.engine.shown x)
      (fun _ _ => False) := by
  obtain ⟨entry, hx⟩ := OrderedMap.mem_keys_iff.1 hx
  have hanswer := h.read_answer x
  rw [h.fault_known hx] at hanswer
  refine ensures_mapError (ensures_onPart ?_)
  refine (Engine.run_ensures (.read x) (f := .number) rfl l.engine).mono (fun v e' hperform => ?_)
    fun err e' hperform => ?_
  · rw [hperform] at hanswer
    have hafter : ((Engine.Command.read x).perform l.engine).2 = e' := congrArg Prod.snd hperform
    subst hafter
    exact ⟨⟨.single rfl, rfl, rfl⟩, Engine.Reply.number.inj (Except.ok.inj hanswer)⟩
  · rw [hperform] at hanswer
    cases hanswer

theorem Furnished.bounds_ensures (h : l.Furnished) (hid : l.elements.get? id = some vars) :
    (Layer.bounds id).Ensures l
      (fun b l' => l.Leads (fun c => c.isRead = true) l' ∧ b = vars.map l.engine.shown)
      (fun _ _ => False) := by
  have helement : l.element id = .ok vars := by
    unfold element
    rw [hid]
  -- reading from a layer that has only been read from
  have hread {l' : Layer α} (hl : l.Leads (fun c => c.isRead = true) l') (x : VariableId)
      (hx : x ∈ vars.toList) : (onEngine (Engine.read x)).Ensures l'
        (fun v l'' => l.Leads (fun c => c.isRead = true) l'' ∧ v = l.engine.shown x)
        (fun _ _ => False) := by
    obtain ⟨h', -, hshown, -⟩ := h.views hl
    refine (read_ensures h'.registered (h'.furnished id vars (hl.elements ▸ hid) x hx)).mono ?_
      fun _ _ hfalse => hfalse
    rintro v l'' ⟨hl', rfl⟩
    exact ⟨hl.trans hl', hshown x⟩
  refine ensures_get_bind ?_
  rw [helement]
  refine ensures_bind (ensures_pure (ensures_bind ((hread .refl vars.x (by simp [Box.toList])).mono
    ?_ fun _ _ hfalse => hfalse)))
  rintro x l₁ ⟨hl₁, rfl⟩
  refine ensures_bind ((hread hl₁ vars.y (by simp [Box.toList])).mono ?_ fun _ _ hfalse => hfalse)
  rintro y l₂ ⟨hl₂, rfl⟩
  refine ensures_bind ((hread hl₂ vars.width (by simp [Box.toList])).mono ?_
    fun _ _ hfalse => hfalse)
  rintro width l₃ ⟨hl₃, rfl⟩
  refine ensures_bind ((hread hl₃ vars.height (by simp [Box.toList])).mono ?_
    fun _ _ hfalse => hfalse)
  rintro height l₄ ⟨hl₄, rfl⟩
  exact ensures_pure ⟨hl₄, rfl⟩

theorem Furnished.boundsOf_ensures (h : l.Furnished) {ks : List (ElementId × Box VariableId)}
    (hks : ∀ k ∈ ks, l.elements.get? k.1 = some k.2) :
    (Layer.boundsOf (ks.map Prod.fst)).Ensures l
      (fun boxes l' => l.Leads (fun c => c.isRead = true) l' ∧
        boxes = ks.map fun k => (k.1, k.2.map l.engine.shown))
      (fun _ _ => False) := by
  induction ks generalizing l with
  | nil => exact ensures_pure ⟨.refl, rfl⟩
  | cons k ks ih =>
    have hk := h.bounds_ensures (hks k List.mem_cons_self)
    refine ensures_bind (hk.mono ?_ fun _ _ hfalse => hfalse)
    rintro b l₁ ⟨hl₁, rfl⟩
    obtain ⟨h₁, -, hshown, -⟩ := h.views hl₁
    have hrest := ih h₁ fun k hk => by
      rw [hl₁.elements]
      exact hks k (List.mem_cons_of_mem _ hk)
    refine ensures_bind (hrest.mono ?_ fun _ _ hfalse => hfalse)
    rintro boxes l₂ ⟨hl₂, rfl⟩
    refine ensures_pure ⟨hl₁.trans hl₂, ?_⟩
    rw [funext hshown]
    rfl

/-- Without a mark an update answers nothing and changes nothing. With a mark it takes the mark
and answers with what the layer shows. -/
theorem Furnished.update_ensures (h : l.Furnished) : Layer.update.Ensures l
    (fun frame l' => l'.Furnished ∧ l'.engine.dirty = false ∧ l'.picture = l.picture ∧
      l'.elements = l.elements ∧ frame = if l.engine.dirty then some l.picture else none)
    (fun _ _ => False) := by
  let l₀ : Layer α := { l with engine := { l.engine with dirty := false } }
  have hshown : ∀ x, l₀.engine.shown x = l.engine.shown x := Engine.shown_congr rfl rfl
  have h₀ : l₀.Furnished :=
    ⟨⟨h.registered.congr rfl rfl rfl rfl, h.numbered, h.issued, h.distinct, h.apart⟩, h.furnished⟩
  have hpicture : l₀.picture = l.picture := picture_congr rfl hshown
  refine ensures_bind (show (if l.engine.dirty then _ else _ : Attempt LayerError (Layer α) _).Ensures
    l₀ _ _ from ?_)
  cases hdirty : l.engine.dirty with
  | false => exact ensures_pure ⟨h₀, rfl, hpicture, rfl, rfl⟩
  | true =>
    have hboxes := h₀.boundsOf_ensures fun k (hk : k ∈ l₀.elements.entries) =>
      OrderedMap.mem_entries_iff.1 hk
    refine ensures_get_bind (ensures_bind (hboxes.mono ?_ fun _ _ hfalse => hfalse))
    rintro boxes l' ⟨hl', rfl⟩
    obtain ⟨h', hdirty', -, hpicture'⟩ := h₀.views hl'
    refine ensures_pure ⟨h', hdirty', hpicture'.trans hpicture, hl'.elements, ?_⟩
    exact congrArg some hpicture

/-! ## Histories -/

/-- The frame that an answer shows. -/
def shownFrame {α : Type} : Except LayerError (Reply α) → Option (List (ElementId × Box α))
  | .ok (.frame boxes) => boxes
  | _ => none

/-- The frames that updates have answered with, in order. -/
def frames (l : Layer α) : List (Command α) → List (List (ElementId × Box α))
  | [] => []
  | c :: history => (shownFrame (c.perform l).1).toList ++ (c.perform l).2.frames history

/-- The call does not go past the layer to take the mark, or to take out a variable of an
element. -/
def Spares (l : Layer α) (c : Command α) : Prop :=
  c ≠ .engine .takeDirty ∧ ∀ x, c = .engine (.removeVariable x) →
    ∀ id vars, l.elements.get? id = some vars → x ∈ vars.toList → x ∈ (c.perform l).2.engine.vars.handles

/-- No call goes past the layer to take the mark, or to take out a variable of an element. -/
def Spared (l : Layer α) : List (Command α) → Prop
  | [] => True
  | c :: history => l.Spares c ∧ (c.perform l).2.Spared history

/-- The mark is set, or the layer shows what was last seen of it. -/
structure Seen (l : Layer α) (last : Option (List (ElementId × Box α))) : Prop extends
    Furnished l where
  seen : l.engine.dirty = true ∨ last = some l.picture

/-- The layer goes on with the same elements, and sets the mark if it shows something else. -/
theorem Seen.go_on {last : Option (List (ElementId × Box α))} (h : l.Seen last)
    (hfurnished : l'.Furnished) (helements : l'.elements = l.elements)
    (hmarks : l.engine.Marks l'.engine) : l'.Seen last := by
  refine ⟨hfurnished, ?_⟩
  rcases hmarks with hdirty | ⟨hdirty, hshown⟩
  · exact .inl hdirty
  · rw [hdirty, picture_congr helements hshown]
    exact h.seen

theorem Furnished.addElement (h : l.Furnished) (b : Box α) (p : Priority) :
    (Layer.addElement b p l).2.Furnished ∧ (Layer.addElement b p l).2.engine.dirty = true := by
  obtain ⟨-, -, -, hhandles, hdirty⟩ := createBox_handles h.registered b p
  refine ⟨⟨h.toHoused.addElement b p, ?_⟩, ?_⟩ <;> rw [addElement_eq h.registered]
  · intro id vars hvars x hx
    change (l.elements.insert ⟨l.nextElement⟩ (freshBox l.engine)).get? id = some vars at hvars
    change x ∈ ((createBox b p l.engine).2).vars.handles
    rw [hhandles, List.mem_append]
    obtain ⟨-, rfl⟩ | hvars := OrderedMap.get?_insert_cases hvars
    · exact .inr hx
    · exact .inl (h.furnished id vars hvars x hx)
  · exact hdirty

theorem Furnished.removeElement (h : l.Furnished) (hid : l.elements.get? id = some vars) :
    ∃ l', Layer.removeElement id l = .ok () l' ∧ l'.Furnished ∧ l'.engine.dirty = true := by
  obtain ⟨_, l', hrun, hremoved, -, -, hdirty⟩ := (removeElement_ensures h.registered hid
    (h.distinct id vars hid) fun x hx => OrderedMap.mem_keys_iff.1 (h.furnished id vars hid x hx)).exists_ok
  have hhoused := (h.toHoused.perform (.removeElement id)).1
  rw [show (Command.removeElement id).perform l = (.ok .done, l') by
    unfold Command.perform
    rw [show (Command.removeElement id).run l = .ok .done l' from bind_run_ok hrun]] at hhoused
  refine ⟨l', hrun, ⟨hhoused, fun id' vars' hvars' x hx => ?_⟩, hdirty⟩
  have hmem := OrderedMap.mem_entries_iff.2 hvars'
  rw [hremoved.elementsKept, List.mem_filter, OrderedMap.mem_entries_iff] at hmem
  obtain ⟨hvars', hne⟩ := hmem
  -- no variable of another element has gone
  have hapart := h.apart id' vars' id vars hvars' hid (of_decide_eq_true hne) x hx
  obtain ⟨entry, hentry⟩ := OrderedMap.mem_keys_iff.1 (h.furnished id' vars' hvars' x hx)
  refine List.mem_map.2 ⟨(x, entry), ?_, rfl⟩
  rw [hremoved.varsKept, List.mem_filter]
  exact ⟨OrderedMap.mem_entries_iff.2 hentry, decide_eq_true hapart⟩

/-! ### Calls -/

/-- Only updates answer with a frame. -/
theorem shownFrame_eq_none {c : Command α} (hc : c ≠ .update) : shownFrame (c.perform l).1 = none := by
  have hsilent {β : Type} (m : Attempt LayerError (Layer α) β) {f : β → Reply α}
      (hf : ∀ b, shownFrame (.ok (f b)) = none) : (m >>= fun b => pure (f b)).Ensures l
        (fun r _ => shownFrame (.ok r) = none) (fun _ _ => True) :=
    ensures_bind ((ensures_run m l).mono (fun b _ _ => ensures_pure (hf b)) fun _ _ _ => trivial)
  have hrun : c.run.Ensures l (fun r _ => shownFrame (.ok r) = none) (fun _ _ => True) := by
    cases c with
    | update => exact absurd rfl hc
    | size =>
      refine ensures_get_bind (ensures_bind ((ensures_run _ l).mono ?_ fun _ _ _ => trivial))
      exact fun b _ _ => ensures_pure rfl
    | element id => exact ensures_get_bind (hsilent _ fun _ => rfl)
    | _ => exact hsilent _ fun _ => rfl
  unfold Command.perform
  unfold Ensures at hrun
  cases hend : c.run l with
  | ok r l' =>
    rw [hend] at hrun
    exact hrun
  | error err l' => rfl

theorem Furnished.update_perform (h : l.Furnished) : ∃ frame l',
    Command.update.perform l = (.ok (.frame frame), l') ∧ l'.Furnished ∧ l'.engine.dirty = false ∧
      l'.picture = l.picture ∧ l'.elements = l.elements ∧
      frame = if l.engine.dirty then some l.picture else none := by
  obtain ⟨frame, l', hrun, hupdated⟩ := h.update_ensures.exists_ok
  refine ⟨frame, l', ?_, hupdated⟩
  unfold Command.perform
  rw [show Command.update.run l = .ok (.frame frame) l' from bind_run_ok hrun]

theorem Furnished.removeElement_perform (h : l.Furnished) (id : ElementId) :
    ((Command.removeElement id).perform l).2 = l ∨
      ((Command.removeElement id).perform l).2.Furnished ∧
        ((Command.removeElement id).perform l).2.engine.dirty = true := by
  unfold Command.perform
  cases hid : l.elements.get? id with
  | none =>
    have helement : l.element id = .error (.unknownElement id) := by
      unfold element
      rw [hid]
    have hrun : (Command.removeElement id).run l = .error (.unknownElement id) l := by
      refine bind_run_error ?_
      unfold Layer.removeElement
      rw [get_bind_run, helement]
      rfl
    rw [hrun]
    exact .inl rfl
  | some vars =>
    obtain ⟨l', hrun, hfurnished, hdirty⟩ := h.removeElement hid
    rw [show (Command.removeElement id).run l = .ok .done l' from bind_run_ok hrun]
    exact .inr ⟨hfurnished, hdirty⟩

/-- A call sets the mark if it changes what the layer shows. Only an update takes the mark, and
then the layer shows the frame that it answers with. -/
theorem Seen.perform {last : Option (List (ElementId × Box α))} (h : l.Seen last) {c : Command α}
    (hc : l.Spares c) : (c.perform l).2.Seen ((shownFrame (c.perform l).1).or last) := by
  have hplain (hplain : c.isPlain = true) (hupdate : c ≠ .update) :
      (c.perform l).2.Seen ((shownFrame (c.perform l).1).or last) := by
    have hl := leads_plain (l := l) hplain
    rw [shownFrame_eq_none hupdate, Option.none_or]
    exact h.go_on (h.toFurnished.leads hl) hl.elements (hl.engine.tame h.registered).1
  cases c with
  | update =>
    obtain ⟨frame, l', hperform, hfurnished, hdirty, hpicture, -, rfl⟩ := h.toFurnished.update_perform
    rw [hperform]
    refine ⟨hfurnished, .inr ?_⟩
    rw [hpicture]
    cases hmark : l.engine.dirty with
    | true => rfl
    | false => exact h.seen.resolve_left (by rw [hmark]; exact Bool.false_ne_true)
  | addElement b p =>
    obtain ⟨hfurnished, hdirty⟩ := h.toFurnished.addElement b p
    exact ⟨hfurnished, .inl hdirty⟩
  | removeElement id =>
    rw [shownFrame_eq_none (by simp), Option.none_or]
    rcases h.toFurnished.removeElement_perform id with hsame | ⟨hfurnished, hdirty⟩
    · rw [hsame]
      exact h
    · exact ⟨hfurnished, .inl hdirty⟩
  | engine c =>
    rw [shownFrame_eq_none (by simp), Option.none_or]
    have hl := leads_engine (l := l) c
    refine h.go_on ⟨h.toHoused.leads hl, fun id vars hvars x hx => ?_⟩ hl.elements
      (hl.engine.marks h.registered ?_)
    · rw [hl.elements] at hvars
      by_cases hremoves : c = .removeVariable x
      · exact hc.2 x (congrArg Command.engine hremoves) id vars hvars hx
      · refine hl.engine.mem_handles h.registered ?_ (h.furnished id vars hvars x hx)
        rintro c rfl
        exact hremoves
    · rintro c rfl hmark
      exact hc.1 (congrArg Command.engine hmark)
  | _ => exact hplain rfl (by simp)

theorem Seen.after {last : Option (List (ElementId × Box α))} (h : l.Seen last)
    {history : List (Command α)} (hspared : l.Spared history) :
    (l.after history).Seen ((l.frames history).getLast?.or last) := by
  induction history generalizing l last with
  | nil => exact h
  | cons c history ih =>
    have hrest := ih (h.perform hspared.1) hspared.2
    have hframe : (shownFrame (c.perform l).1).toList.getLast? = shownFrame (c.perform l).1 := by
      cases shownFrame (c.perform l).1 <;> rfl
    rw [frames, List.getLast?_append, Option.or_assoc, hframe]
    exact hrest

theorem spared_of_forall {history : List (Command α)}
    (h : ∀ c ∈ history, c ≠ .engine .takeDirty ∧ ∀ x, c ≠ .engine (.removeVariable x)) :
    l.Spared history := by
  induction history generalizing l with
  | nil => trivial
  | cons c history ih =>
    obtain ⟨hmark, hkeep⟩ := h c List.mem_cons_self
    exact ⟨⟨hmark, fun x hx => absurd hx (hkeep x)⟩, ih fun c hc => h c (List.mem_cons_of_mem _ hc)⟩

theorem seen_create (id : EngineId) (options : EngineOptions) (width height : α) :
    (Layer.create id options width height).Seen none where
  toHoused := housed_create id options width height
  furnished _ _ h := by cases h
  seen := .inl (createBox_handles (.create id options) _ _).2.2.2.2

/-! ## What updates tell -/

theorem leads_bounds (id : ElementId) :
    l.Leads (fun c => c.isRead = true) ((Command.bounds id).perform l).2 :=
  Command.perform_ensures ((views_bounds id).bind fun _ _ => takes_pure _)

theorem leads_asked (asked : List ElementId) :
    l.Leads (fun c => c.isRead = true) (l.after (asked.map Command.bounds)) := by
  induction asked generalizing l with
  | nil => exact .refl
  | cons id asked ih => exact (leads_bounds id).trans ih

/-- Asking for the box of an element answers with what the layer shows. -/
theorem Furnished.bounds_perform (h : l.Furnished) {b : Box α} (hid : (id, b) ∈ l.picture) :
    ((Command.bounds id).perform l).1 = .ok (.bounds b) := by
  obtain ⟨k, hk, heq⟩ := List.mem_map.1 hid
  cases heq
  obtain ⟨b, l', hrun, -, rfl⟩ :=
    (h.bounds_ensures (OrderedMap.mem_entries_iff.1 hk)).exists_ok
  unfold Command.perform
  rw [show (Command.bounds k.1).run l = .ok (.bounds (k.2.map l.engine.shown)) l' from bind_run_ok hrun]

/-- As long as nobody goes past the layer to take its mark, or to take out a variable of an
element, updates succeed, and the first one answers with a frame. When an update answers nothing,
the elements are those of the last frame, in its order, and asking for their boxes, in any order
and any number of times, answers with the boxes of that frame. -/
theorem update_hides_nothing (id : EngineId) (options : EngineOptions) (width height : α)
    (history : List (Command α)) :
    let l₀ : Layer α := .create id options width height
    let l := l₀.after history
    l₀.Spared history →
      (∃ frame, (Command.update.perform l).1 = .ok (.frame frame)) ∧
      (l₀.frames history = [] → ∃ boxes, (Command.update.perform l).1 = .ok (.frame (some boxes))) ∧
      ((Command.update.perform l).1 = .ok (.frame none) →
        ∃ boxes, (l₀.frames history).getLast? = some boxes ∧
          (Command.update.perform l).2.elements.keys = boxes.map Prod.fst ∧
          ∀ (asked : List ElementId) which b, (which, b) ∈ boxes → ((Command.bounds which).perform
            ((Command.update.perform l).2.after (asked.map Command.bounds))).1 = .ok (.bounds b)) := by
  intro l₀ l hspared
  have hseen : l.Seen ((l₀.frames history).getLast?.or none) :=
    (seen_create id options width height).after hspared
  rw [Option.or_none] at hseen
  obtain ⟨frame, l', hperform, hfurnished, -, hpicture, helements, hframe⟩ :=
    hseen.toFurnished.update_perform
  rw [hperform]
  refine ⟨⟨frame, rfl⟩, fun hnone => ?_, fun hnothing => ?_⟩
  · have hdirty : l.engine.dirty = true := by simpa [hnone] using hseen.seen
    rw [hframe, hdirty]
    exact ⟨_, rfl⟩
  · obtain rfl : frame = none := Reply.frame.inj (Except.ok.inj hnothing)
    have hlast : (l₀.frames history).getLast? = some l.picture := by
      refine hseen.seen.resolve_left fun hdirty => ?_
      rw [hdirty] at hframe
      cases hframe
    refine ⟨l.picture, hlast, ?_, fun asked which b hb => ?_⟩
    · rw [helements, picture, List.map_map]
      rfl
    · obtain ⟨hasked, -, -, hsame⟩ := hfurnished.views (leads_asked asked)
      exact hasked.bounds_perform (by rw [hsame, hpicture]; exact hb)

/-- An element that is pinned to one place and held at another. Each time its box is asked for,
rebuilding the solver fails again. -/
def held : List (Command Rat) :=
  [.addElement ⟨1, 2, 3, 4⟩ .p0,
    .engine (.createConstraint ⟨.ofUnknown ⟨⟨0⟩, 4⟩, .equal, .ofConstant 5, .p0⟩ true), .update,
    .bounds ⟨0⟩, .move ⟨0⟩ ⟨1, 2, 3, 4⟩]

/-- The element is shown where it was created, then and later. -/
theorem update_hides_nothing_held :
    let l₀ : Layer Rat := .create ⟨0⟩ ⟨true, 100⟩ 800 600
    let l := l₀.after held
    l₀.Spared held ∧ (Command.update.perform l).1 = .ok (.frame none) ∧
      ((Command.bounds ⟨0⟩).perform (Command.update.perform l).2).1 = .ok (.bounds ⟨1, 2, 3, 4⟩) := by
  intro l₀ l
  have hspared : l₀.Spared held := spared_of_forall (by simp [held])
  have hnothing : shownFrame (Command.update.perform l).1 = none := by decide +kernel
  have hframes : l₀.frames held = [[(⟨0⟩, ⟨1, 2, 3, 4⟩)]] := by decide +kernel
  have hexact := update_hides_nothing ⟨0⟩ ⟨true, 100⟩ (800 : Rat) 600 held
  -- the history has been run, and is not to be run again by unification
  have hl₀ : l₀ = Layer.create ⟨0⟩ ⟨true, 100⟩ 800 600 := rfl
  have hl : l = l₀.after held := rfl
  clear_value l
  clear_value l₀
  dsimp only at hexact
  rw [← hl₀, ← hl] at hexact
  obtain ⟨⟨frame, hframe⟩, -, hhidden⟩ := hexact hspared
  rw [hframe] at hnothing
  obtain rfl : frame = none := hnothing
  obtain ⟨boxes, hlast, -, hboxes⟩ := hhidden hframe
  rw [hframes] at hlast
  obtain rfl : [(⟨0⟩, ⟨1, 2, 3, 4⟩)] = boxes := Option.some.inj hlast
  exact ⟨hspared, hframe, hboxes [] ⟨0⟩ ⟨1, 2, 3, 4⟩ List.mem_cons_self⟩

end Layer

end BoxLayout
