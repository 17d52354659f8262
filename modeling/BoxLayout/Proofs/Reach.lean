-- SUMMARY: A layer takes its engine on by calls of the engine, and its elements are a matter of a few calls only.
import BoxLayout.Proofs.Events
import BoxLayout.Proofs.Bookkeeping
import BoxLayout.Proofs.Orientations

/-!
# What a layer does to its engine

A layer has no way of its own to change its engine. Whatever it does, it makes calls of the
engine and writes messages. So what each call of the engine keeps is kept by each call of the
layer, be it refused half way or not.

Most calls of a layer are tame: they neither remove a variable nor take the mark that something
changed, and they leave the elements alone.
-/

namespace BoxLayout

open Attempt

namespace Engine

variable {α : Type} [Scalar α] {e e' e'' : Engine α} {allowed allowed' : Command α → Prop}

/-- The second engine comes from the first by allowed calls, with messages in between. -/
inductive Reaches (allowed : Command α → Prop) (e : Engine α) : Engine α → Prop where
  | refl : Reaches allowed e e
  | call {e' : Engine α} {c : Command α} :
      Reaches allowed e e' → allowed c → Reaches allowed e (c.perform e').2
  | log {e' : Engine α} (level : LogLevel) (source : LogSource) (message : String) :
      Reaches allowed e e' → Reaches allowed e (e'.log level source message)

namespace Reaches

theorem single {c : Command α} (hc : allowed c) : e.Reaches allowed (c.perform e).2 :=
  .call .refl hc

theorem trans (h : e.Reaches allowed e') (h' : e'.Reaches allowed e'') : e.Reaches allowed e'' := by
  induction h' with
  | refl => exact h
  | call _ hc ih => exact .call ih hc
  | log level source message _ ih => exact .log level source message ih

theorem mono (h : e.Reaches allowed e') (hle : ∀ c, allowed c → allowed' c) :
    e.Reaches allowed' e' := by
  induction h with
  | refl => exact .refl
  | call _ hc ih => exact .call ih (hle _ hc)
  | log level source message _ ih => exact .log level source message ih

/-- The registries still fit together, and the handles that were issued count as issued. -/
theorem registered (h : e.Reaches allowed e') (hreg : e.Registered) :
    e'.Registered ∧ e'.id = e.id ∧ e.vars.next ≤ e'.vars.next := by
  induction h with
  | refl => exact ⟨hreg, rfl, Nat.le_refl _⟩
  | @call e' c _ _ ih =>
    obtain ⟨hreg', hid, hnext⟩ := ih
    exact ⟨hreg'.after [c], (hreg'.perform_inherits c).id.trans hid,
      Nat.le_trans hnext (hreg'.nextIndex_perform c .var)⟩
  | log _ _ _ _ ih => exact ⟨ih.1.congr rfl rfl rfl rfl, ih.2⟩

end Reaches

/-- The command takes no variable out, and leaves the mark to the caller. -/
def Command.isTame {α : Type} : Command α → Bool
  | removeVariable _ | takeDirty => false
  | _ => true

omit [Scalar α] in
theorem Command.isTame_of_isRead {c : Command α} (hc : c.isRead = true) : c.isTame = true := by
  obtain ⟨x, rfl⟩ := Command.isRead_iff.1 hc
  rfl

/-- An attempt that a command makes ends as the command does. -/
theorem run_ensures {β : Type} {m : Attempt EngineError (Engine α) β} {f : β → Reply α}
    (c : Command α) (hrun : c.run = m >>= fun b => pure (f b)) (e : Engine α) :
    m.Ensures e (fun b e' => c.perform e = (.ok (f b), e'))
      (fun err e' => c.perform e = (.error err, e')) := by
  unfold Ensures Command.perform
  rw [hrun, bind_run]
  cases m e <;> rfl

end Engine

namespace Layer

variable {α : Type} [Scalar α] {l l' l'' : Layer α} {allowed allowed' : Engine.Command α → Prop}

/-- The engine has been taken on by allowed calls, and the elements are the same. -/
structure Leads (allowed : Engine.Command α → Prop) (l l' : Layer α) : Prop where
  engine : l.engine.Reaches allowed l'.engine
  elements : l'.elements = l.elements
  nextElement : l'.nextElement = l.nextElement

theorem Leads.refl : l.Leads allowed l := ⟨.refl, rfl, rfl⟩

theorem Leads.trans (h : l.Leads allowed l') (h' : l'.Leads allowed l'') : l.Leads allowed l'' :=
  ⟨h.engine.trans h'.engine, h'.elements.trans h.elements, h'.nextElement.trans h.nextElement⟩

theorem Leads.mono (h : l.Leads allowed l') (hle : ∀ c, allowed c → allowed' c) :
    l.Leads allowed' l' :=
  ⟨h.engine.mono hle, h.elements, h.nextElement⟩

/-! ## Attempts -/

section

variable {β γ : Type}

/-- However the attempt ends, it has only taken the engine on by allowed calls. -/
def Takes (allowed : Engine.Command α → Prop) (m : Attempt LayerError (Layer α) β) (l : Layer α) :
    Prop :=
  m.Ensures l (fun _ => l.Leads allowed) (fun _ => l.Leads allowed)

theorem takes_pure (b : β) : Takes allowed (pure b) l := ensures_pure .refl

theorem takes_ofExcept (x : Except LayerError β) : Takes allowed (ofExcept x) l :=
  ensures_ofExcept (fun _ _ => .refl) fun _ _ => .refl

theorem takes_modify {g : Layer α → Layer α} (hg : l.Leads allowed (g l)) :
    Takes allowed (modify g) l := ensures_modify hg

theorem Takes.bind {m : Attempt LayerError (Layer α) β} {f : β → Attempt LayerError (Layer α) γ}
    (hm : Takes allowed m l) (hf : ∀ b l', Takes allowed (f b) l') : Takes allowed (m >>= f) l := by
  refine ensures_bind (hm.mono (fun b l' hleads => ?_) fun _ _ hleads => hleads)
  exact (hf b l').mono (fun _ _ h => hleads.trans h) fun _ _ h => hleads.trans h

theorem Takes.forM {xs : List β} {f : β → Attempt LayerError (Layer α) PUnit}
    (hf : ∀ x l', Takes allowed (f x) l') : Takes allowed (xs.forM f) l := by
  refine ensures_forM (I := fun _ => l.Leads allowed) (fun _ x _ l' _ hleads => ?_) .refl
  exact (hf x l').mono (fun _ _ h => hleads.trans h) fun _ _ h => hleads.trans h

theorem Takes.mono {m : Attempt LayerError (Layer α) β} (hm : Takes allowed m l)
    (hle : ∀ c, allowed c → allowed' c) : Takes allowed' m l :=
  Ensures.mono hm (fun _ _ h => h.mono hle) fun _ _ h => h.mono hle

theorem call_ensures {m : Attempt EngineError (Engine α) β} {f : β → Engine.Reply α}
    (c : Engine.Command α) (hrun : c.run = m >>= fun b => pure (f b)) (hc : allowed c) :
    m.Ensures l.engine (fun _ e' => l.Leads allowed { l with engine := e' })
      (fun _ e' => l.Leads allowed { l with engine := e' }) := by
  have hafter {e' : Engine α} (he' : (c.perform l.engine).2 = e') :
      l.Leads allowed { l with engine := e' } := by
    subst he'
    exact ⟨.single hc, rfl, rfl⟩
  exact (Engine.run_ensures c hrun l.engine).mono (fun _ _ h => hafter (congrArg Prod.snd h))
    fun _ _ h => hafter (congrArg Prod.snd h)

/-- An attempt on the engine that is a call of it. -/
theorem takes_onEngine {m : Attempt EngineError (Engine α) β} {f : β → Engine.Reply α}
    (c : Engine.Command α) (hrun : c.run = m >>= fun b => pure (f b)) (hc : allowed c) :
    Takes allowed (Layer.onEngine m) l :=
  ensures_mapError (ensures_onPart (call_ensures c hrun hc))

theorem takes_tryEngine {m : Attempt EngineError (Engine α) β} {f : β → Engine.Reply α}
    (c : Engine.Command α) (hrun : c.run = m >>= fun b => pure (f b)) (hc : allowed c) :
    Takes allowed (Layer.tryEngine m) l :=
  ensures_onPart (ensures_outcome (call_ensures c hrun hc))

end

/-! ## Reads -/

/-- Attempts that only read from the engine. -/
abbrev Views {β : Type} (m : Attempt LayerError (Layer α) β) (l : Layer α) : Prop :=
  Takes (fun c => c.isRead = true) m l

theorem views_read (x : VariableId) : Views (onEngine (Engine.read x)) l :=
  takes_onEngine (.read x) (f := .number) rfl rfl

theorem views_bounds (id : ElementId) : Views (Layer.bounds id) l := by
  refine ensures_get_bind ((takes_ofExcept _).bind fun vars l => ?_)
  refine (views_read vars.x).bind fun _ l => (views_read vars.y).bind fun _ l => ?_
  exact (views_read vars.width).bind fun _ l => (views_read vars.height).bind fun _ l => takes_pure _

theorem views_boundsOf (ids : List ElementId) : Views (Layer.boundsOf ids) l := by
  induction ids generalizing l with
  | nil => exact takes_pure _
  | cons id ids ih => exact (views_bounds id).bind fun _ _ => ih.bind fun _ _ => takes_pure _

/-! ## Tame calls -/

/-- Attempts that make tame calls of the engine only. -/
abbrev Tame {β : Type} (m : Attempt LayerError (Layer α) β) (l : Layer α) : Prop :=
  Takes (fun c => c.isTame = true) m l

theorem tame_log (level : LogLevel) (message : String) : Tame (modify (log level message)) l :=
  takes_modify ⟨.log level .layer message .refl, rfl, rfl⟩

theorem tame_suggest (x : VariableId) (target : α) : Tame (onEngine (Engine.suggest x target)) l :=
  takes_onEngine (.suggest x target) (f := fun _ => .done) rfl rfl

theorem tame_setEnabled (c : ConstraintId) (enabled : Bool) :
    Tame (tryEngine (Engine.setEnabled c enabled)) l :=
  takes_tryEngine (.setEnabled c enabled) (f := fun _ => .done) rfl rfl

theorem tame_createConstraint (d : Definition α) (enabled : Bool) :
    Tame (onEngine (Engine.createConstraint d enabled)) l :=
  takes_onEngine (.createConstraint d enabled) (f := .handle) rfl rfl

theorem tame_removeConstraint (c : ConstraintId) : Tame (onEngine (Engine.removeConstraint c)) l :=
  takes_onEngine (.removeConstraint c) (f := fun _ => .done) rfl rfl

theorem tame_switchGate (o : Orientation) (c : ConstraintId) (gate : Orientation) :
    Tame (switchGate o c gate) l := by
  refine (tame_log _ _).bind fun _ l => (tame_setEnabled c _).bind fun outcome l => ?_
  split
  · exact takes_pure _
  · exact takes_pure _
  · exact Leads.refl

theorem tame_switchGates (o : Orientation) (gates : List (ConstraintId × Orientation)) :
    Tame (switchGates o gates) l := by
  induction gates generalizing l with
  | nil => exact takes_pure _
  | cons g gates ih =>
    exact (tame_switchGate o g.1 g.2).bind fun _ _ => ih.bind fun _ _ => takes_pure _

theorem tame_setOrientation (o : Orientation) : Tame (Layer.setOrientation o) l := by
  refine ensures_get_bind ?_
  split
  · exact takes_pure _
  refine (tame_log _ _).bind fun _ l => (tame_switchGates o _).bind fun gone l => ?_
  refine (Takes.forM fun c l => ?_).bind fun _ l => takes_modify ⟨.refl, rfl, rfl⟩
  exact (tame_log _ _).bind fun _ l => takes_modify ⟨.refl, rfl, rfl⟩

theorem tame_resize (width height : α) : Tame (Layer.resize width height) l := by
  refine ensures_get_bind ((tame_suggest _ width).bind fun _ l => ?_)
  exact ensures_get_bind ((tame_suggest _ height).bind fun _ l => tame_setOrientation _)

theorem tame_move (id : ElementId) (b : Box α) : Tame (Layer.move id b) l := by
  refine ensures_get_bind ((takes_ofExcept _).bind fun vars l => ?_)
  refine (tame_suggest vars.x b.x).bind fun _ l => ?_
  refine (tame_suggest vars.y b.y).bind fun _ l => ?_
  exact (tame_suggest vars.width b.width).bind fun _ l => tame_suggest vars.height b.height

theorem tame_constrain (gate : Option Orientation) (d : Definition α) :
    Tame (Layer.constrain gate d) l := by
  refine ensures_get_bind ((tame_createConstraint d _).bind fun c l => ?_)
  exact Takes.bind (takes_modify ⟨.refl, rfl, rfl⟩) fun _ l => takes_pure c

theorem tame_release (c : ConstraintId) : Tame (Layer.release c) l :=
  Takes.bind (takes_modify ⟨.refl, rfl, rfl⟩) fun _ _ => tame_removeConstraint c

/-- The command is about neither the elements nor the mark that something changed, and does not
go past the layer. -/
def Command.isPlain {α : Type} : Command α → Bool
  | addElement .. | removeElement _ | update | engine _ => false
  | _ => true

theorem leads_plain {c : Command α} (hc : c.isPlain = true) :
    l.Leads (fun c => c.isTame = true) (c.perform l).2 := by
  have htame (hrun : Tame c.run l) : l.Leads (fun c => c.isTame = true) (c.perform l).2 :=
    Command.perform_ensures hrun
  cases c with
  | addElement | removeElement | update | engine => cases hc
  | orientation | elements => exact .refl
  | listen who => exact ⟨.refl, rfl, rfl⟩
  | size | element id => exact htame (ensures_get_bind ((takes_ofExcept _).bind fun _ _ => takes_pure _))
  | setOrientation o => exact htame ((tame_setOrientation o).bind fun _ _ => takes_pure _)
  | resize width height => exact htame ((tame_resize width height).bind fun _ _ => takes_pure _)
  | move id b => exact htame ((tame_move id b).bind fun _ _ => takes_pure _)
  | bounds id => exact htame (((views_bounds id).mono fun _ => Engine.Command.isTame_of_isRead).bind fun _ _ => takes_pure _)
  | constrain gate d => exact htame ((tame_constrain gate d).bind fun _ _ => takes_pure _)
  | release c => exact htame ((tame_release c).bind fun _ _ => takes_pure _)

end Layer

end BoxLayout
