-- SUMMARY: What an attempt ensures about its answer and the state it leaves, well or badly.
import BoxLayout.Attempt.Lemmas

/-!
# What an attempt ensures

`m.Ensures s Q E` says how the attempt `m` may end on the state `s`: well, with an
answer and a state in `Q`, or badly, with an error and a state in `E`. There is
one rule for each building block, so that an attempt of several steps is followed
step by step without unfolding the state monad.
-/

namespace BoxLayout.Attempt

variable {ε ε' σ τ β γ : Type}

/-- The attempt ends on `s` with an answer and a state in `Q`, or fails with an error
and a state in `E`. -/
def Ensures (m : Attempt ε σ β) (s : σ) (Q : β → σ → Prop) (E : ε → σ → Prop) : Prop :=
  match m s with
  | .ok b t => Q b t
  | .error e t => E e t

variable {m : Attempt ε σ β} {s t : σ} {b : β} {e : ε}
  {Q Q' : β → σ → Prop} {E E' : ε → σ → Prop}

/-! ## Reading off a run -/

theorem Ensures.of_ok (h : m.Ensures s Q E) (hm : m s = .ok b t) : Q b t := by
  unfold Ensures at h
  rw [hm] at h
  exact h

theorem Ensures.of_error (h : m.Ensures s Q E) (hm : m s = .error e t) : E e t := by
  unfold Ensures at h
  rw [hm] at h
  exact h

theorem Ensures.mono (h : m.Ensures s Q E) (hQ : ∀ b t, Q b t → Q' b t)
    (hE : ∀ e t, E e t → E' e t) : m.Ensures s Q' E' := by
  unfold Ensures at h ⊢
  cases hm : m s with
  | ok b t => rw [hm] at h; exact hQ b t h
  | error e t => rw [hm] at h; exact hE e t h

/-- What is ensured twice is ensured together. -/
theorem Ensures.and (h : m.Ensures s Q E) (h' : m.Ensures s Q' E') :
    m.Ensures s (fun b t => Q b t ∧ Q' b t) (fun e t => E e t ∧ E' e t) := by
  unfold Ensures at h h' ⊢
  cases hm : m s with
  | ok b t => rw [hm] at h h'; exact ⟨h, h'⟩
  | error e t => rw [hm] at h h'; exact ⟨h, h'⟩

/-- An attempt that cannot fail ends with an answer. -/
theorem Ensures.exists_ok (h : m.Ensures s Q fun _ _ => False) : ∃ b t, m s = .ok b t ∧ Q b t := by
  unfold Ensures at h
  cases hm : m s with
  | ok b t => rw [hm] at h; exact ⟨b, t, rfl, h⟩
  | error e t => rw [hm] at h; exact h.elim

/-- An attempt ensures how it ends. -/
theorem ensures_run (m : Attempt ε σ β) (s : σ) :
    m.Ensures s (fun b t => m s = .ok b t) (fun e t => m s = .error e t) := by
  unfold Ensures
  cases m s with
  | ok b t => rfl
  | error e t => rfl

/-! ## Building blocks -/

theorem ensures_pure (h : Q b s) : (pure b : Attempt ε σ β).Ensures s Q E := h

theorem ensures_bind {f : β → Attempt ε σ γ} {R : γ → σ → Prop}
    (h : m.Ensures s (fun b t => (f b).Ensures t R E) E) : (m >>= f).Ensures s R E := by
  unfold Ensures at h ⊢
  rw [bind_run]
  cases hm : m s with
  | ok b t => rw [hm] at h; exact h
  | error e t => rw [hm] at h; exact h

theorem ensures_get_bind {f : σ → Attempt ε σ β} (h : (f s).Ensures s Q E) :
    ((get : Attempt ε σ σ) >>= f).Ensures s Q E := h

theorem ensures_set_bind {f : PUnit → Attempt ε σ β} (h : (f ⟨⟩).Ensures t Q E) :
    ((set t : Attempt ε σ PUnit) >>= f).Ensures s Q E := h

theorem ensures_modify {g : σ → σ} {Q : PUnit → σ → Prop} (h : Q ⟨⟩ (g s)) :
    (modify g : Attempt ε σ PUnit).Ensures s Q E := h

theorem ensures_modify_bind {g : σ → σ} {f : PUnit → Attempt ε σ β}
    (h : (f ⟨⟩).Ensures (g s) Q E) : ((modify g : Attempt ε σ PUnit) >>= f).Ensures s Q E := h

theorem ensures_modifyGet_bind {g : σ → β × σ} {f : β → Attempt ε σ γ} {R : γ → σ → Prop}
    (h : (f (g s).1).Ensures (g s).2 R E) :
    ((modifyGet g : Attempt ε σ β) >>= f).Ensures s R E := h

theorem ensures_ofExcept {x : Except ε β} (hok : ∀ b, x = .ok b → Q b s)
    (herror : ∀ e, x = .error e → E e s) : (ofExcept x : Attempt ε σ β).Ensures s Q E := by
  cases x with
  | ok b => exact hok b rfl
  | error e => exact herror e rfl

/-- An attempt on a part of the state says nothing about the rest. -/
theorem ensures_onPart {part : σ → τ} {replace : τ → σ → σ} {m : Attempt ε τ β}
    (h : m.Ensures (part s) (fun b t => Q b (replace t s)) (fun e t => E e (replace t s))) :
    (onPart part replace m).Ensures s Q E := by
  unfold Ensures at h ⊢
  rw [onPart_run]
  cases hm : m (part s) with
  | ok b t => rw [hm] at h; exact h
  | error e t => rw [hm] at h; exact h

/-- Errors in other words are still errors of the same attempt. -/
theorem ensures_mapError {f : ε → ε'} {E : ε' → σ → Prop}
    (h : m.Ensures s Q (fun e t => E (f e) t)) : (m.mapError f).Ensures s Q E := by
  unfold Ensures at h ⊢
  rw [mapError_run]
  cases hm : m s with
  | ok b t => rw [hm] at h; exact h
  | error e t => rw [hm] at h; exact h

/-- What is ensured of either ending is ensured of the outcome. -/
theorem ensures_outcome {Q : Except ε β → σ → Prop} {E : ε' → σ → Prop}
    (h : m.Ensures s (fun b t => Q (.ok b) t) (fun e t => Q (.error e) t)) :
    (m.outcome : Attempt ε' σ (Except ε β)).Ensures s Q E := by
  unfold Ensures at h ⊢
  rw [outcome_run]
  cases hm : m s with
  | ok b t => rw [hm] at h; exact h
  | error e t => rw [hm] at h; exact h

/-! ## Loops -/

/-- What every step keeps holds when a loop ends, together with what its last step
answered. A loop also fails when no step is left, with all steps taken in order. -/
theorem ensures_loop {step : Attempt ε σ Bool} {out : ε} {I Q : σ → Prop} {E : ε → σ → Prop}
    (hstep : ∀ s, I s → step.Ensures s (fun more t => if more then I t else Q t) E)
    (hout : ∀ s, I s → E out s) (n : Nat) (hs : I s) :
    (loop step out n).Ensures s (fun _ t => Q t) E := by
  induction n generalizing s with
  | zero => exact hout s hs
  | succ n ih =>
    have h := hstep s hs
    unfold Ensures at h ⊢
    rw [loop_succ]
    cases hm : step s with
    | error e t => rw [hm] at h; exact h
    | ok more t =>
      rw [hm] at h
      cases more with
      | false => exact h
      | true => exact ih h

/-- In a loop over a list each step extends what holds of the steps before it. -/
theorem ensures_forM {xs : List τ} {f : τ → Attempt ε σ PUnit} {I : List τ → σ → Prop}
    {E : ε → σ → Prop} (hstep : ∀ done x todo s, xs = done ++ x :: todo → I done s →
      (f x).Ensures s (fun _ t => I (done ++ [x]) t) E)
    (hs : I [] s) : (xs.forM f).Ensures s (fun _ t => I xs t) E := by
  have hrest (todo done : List τ) (s : σ) (hxs : xs = done ++ todo) (hs : I done s) :
      (todo.forM f).Ensures s (fun _ t => I xs t) E := by
    induction todo generalizing done s with
    | nil =>
      rw [List.append_nil] at hxs
      rw [hxs]
      exact hs
    | cons x todo ih =>
      refine ensures_bind ((hstep done x todo s hxs hs).mono ?_ fun _ _ he => he)
      intro _ t ht
      exact ih (done ++ [x]) t (by rw [hxs, List.append_assoc]; rfl) ht
  exact hrest xs [] s rfl hs

end BoxLayout.Attempt
