-- SUMMARY: What each building block of an attempt does to a state.
import BoxLayout.Attempt

/-!
# Running attempts

One equation for each building block, about its result on a given state. An
attempt made of several steps is run by these equations, one after the other.
-/

namespace BoxLayout.Attempt

variable {ε ε' σ τ β γ : Type}

/-! ## Sequencing -/

@[simp] theorem pure_run (b : β) (s : σ) : (pure b : Attempt ε σ β) s = .ok b s := rfl

@[simp] theorem throw_run (e : ε) (s : σ) : (throw e : Attempt ε σ β) s = .error e s := rfl

theorem bind_run (m : Attempt ε σ β) (f : β → Attempt ε σ γ) (s : σ) :
    (m >>= f) s = match m s with
      | .ok b s => f b s
      | .error e s => .error e s := rfl

theorem bind_run_ok {m : Attempt ε σ β} {f : β → Attempt ε σ γ} {s t : σ} {b : β}
    (h : m s = .ok b t) : (m >>= f) s = f b t := by
  rw [bind_run, h]

theorem bind_run_error {m : Attempt ε σ β} {f : β → Attempt ε σ γ} {s t : σ} {e : ε}
    (h : m s = .error e t) : (m >>= f) s = .error e t := by
  rw [bind_run, h]

/-! ## The state -/

@[simp] theorem get_run (s : σ) : (get : Attempt ε σ σ) s = .ok s s := rfl

@[simp] theorem set_run (s t : σ) : (set t : Attempt ε σ PUnit) s = .ok ⟨⟩ t := rfl

@[simp] theorem modify_run (f : σ → σ) (s : σ) : (modify f : Attempt ε σ PUnit) s = .ok ⟨⟩ (f s) :=
  rfl

@[simp] theorem modifyGet_run (f : σ → β × σ) (s : σ) :
    (modifyGet f : Attempt ε σ β) s = .ok (f s).1 (f s).2 := rfl

@[simp] theorem get_bind_run (f : σ → Attempt ε σ β) (s : σ) :
    ((get : Attempt ε σ σ) >>= f) s = f s s := rfl

@[simp] theorem modify_bind_run (g : σ → σ) (f : PUnit → Attempt ε σ β) (s : σ) :
    ((modify g : Attempt ε σ PUnit) >>= f) s = f ⟨⟩ (g s) := rfl

/-! ## Outcomes -/

@[simp] theorem ofExcept_ok_run (b : β) (s : σ) :
    (ofExcept (.ok b : Except ε β) : Attempt ε σ β) s = .ok b s := rfl

@[simp] theorem ofExcept_error_run (e : ε) (s : σ) :
    (ofExcept (.error e : Except ε β) : Attempt ε σ β) s = .error e s := rfl

theorem outcome_run (m : Attempt ε σ β) (s : σ) :
    (m.outcome : Attempt ε' σ (Except ε β)) s = match m s with
      | .ok b s => .ok (.ok b) s
      | .error e s => .ok (.error e) s := rfl

theorem mapError_run (f : ε → ε') (m : Attempt ε σ β) (s : σ) :
    m.mapError f s = match m s with
      | .ok b s => .ok b s
      | .error e s => .error (f e) s := rfl

theorem onPart_run (part : σ → τ) (replace : τ → σ → σ) (m : Attempt ε τ β) (s : σ) :
    onPart part replace m s = match m (part s) with
      | .ok b t => .ok b (replace t s)
      | .error e t => .error e (replace t s) := rfl

/-! ## Loops -/

@[simp] theorem loop_zero (step : Attempt ε σ Bool) (out : ε) (s : σ) :
    loop step out 0 s = .error out s := rfl

/-- A loop goes on only after a step that answers `true`. -/
theorem loop_succ (step : Attempt ε σ Bool) (out : ε) (n : Nat) (s : σ) :
    loop step out (n + 1) s = match step s with
      | .ok true s => loop step out n s
      | .ok false s => .ok () s
      | .error e s => .error e s := by
  simp only [loop, bind_run]
  cases step s with
  | error e s => rfl
  | ok b s => cases b <;> rfl

end BoxLayout.Attempt
