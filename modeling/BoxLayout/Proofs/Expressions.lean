-- SUMMARY: The value of expressions as they are written down, and of what the solver reads.
import Mathlib.Algebra.BigOperators.Ring.List
import Mathlib.Algebra.Field.Rat
import Mathlib.Tactic.Ring
import BoxLayout.Proofs.Registries
import BoxLayout.Scalar.Exact

/-!
# Values of expressions

Over exact numbers every operation on expressions is an operation on their values. So an
expression that a caller writes down, by any nesting of the operations, is worth what it
reads as: `Written.eval_build`. Terms are never merged on the way, and an unknown that occurs
several times counts several times.

`sum_terms_mul` is the one fact about lists behind this.
-/

namespace BoxLayout

namespace Linear

variable {ν μ : Type}

/-- Scaling every term scales their sum. -/
theorem sum_terms_mul (ts : List (Term ν Rat)) (k : Rat) (y : ν → Rat) :
    ((ts.map fun t => (⟨t.unknown, t.coefficient * k⟩ : Term ν Rat)).map fun t =>
        t.coefficient * y t.unknown).sum
      = k * (ts.map fun t => t.coefficient * y t.unknown).sum := by
  rw [List.map_map, ← List.sum_map_mul_left]
  congr 1
  apply List.map_congr_left
  intro t _
  change t.coefficient * k * y t.unknown = k * (t.coefficient * y t.unknown)
  ring

/-! ## Operations -/

theorem eval_ofConstant (x : Rat) (y : ν → Rat) : (ofConstant x).eval y = x := by
  unfold eval ofConstant
  simp

theorem eval_ofUnknown (u : ν) (y : ν → Rat) : (ofUnknown u).eval y = y u := by
  unfold eval ofUnknown
  simp

theorem eval_ofTerms (x : Rat) (ts : List (ν × Rat)) (y : ν → Rat) :
    (ofTerms x ts).eval y = x + (ts.map fun t => t.2 * y t.1).sum := by
  unfold eval ofTerms
  rw [List.map_map]
  rfl

theorem eval_addTerm (e : Linear ν Rat) (u : ν) (k : Rat) (y : ν → Rat) :
    (e.addTerm u k).eval y = e.eval y + k * y u := by
  unfold eval addTerm
  rw [List.map_append, List.sum_append, ← add_assoc, List.map_singleton, List.sum_singleton]

theorem eval_add (e f : Linear ν Rat) (y : ν → Rat) :
    (e.add f).eval y = e.eval y + f.eval y := by
  unfold eval add
  rw [List.map_append, List.sum_append]
  ring

theorem eval_scale (e : Linear ν Rat) (k : Rat) (y : ν → Rat) :
    (e.scale k).eval y = k * e.eval y := by
  unfold eval scale
  rw [sum_terms_mul]
  ring

theorem eval_neg (e : Linear ν Rat) (y : ν → Rat) : e.neg.eval y = -e.eval y := by
  unfold neg
  rw [eval_scale, neg_one_mul]

theorem eval_sub (e f : Linear ν Rat) (y : ν → Rat) :
    (e.sub f).eval y = e.eval y - f.eval y := by
  unfold sub
  rw [eval_add, eval_neg, sub_eq_add_neg]

theorem eval_addConstant (e : Linear ν Rat) (x : Rat) (y : ν → Rat) :
    (e.addConstant x).eval y = e.eval y + x := by
  unfold eval addConstant
  ring

theorem eval_subConstant (e : Linear ν Rat) (x : Rat) (y : ν → Rat) :
    (e.subConstant x).eval y = e.eval y - x := by
  unfold subConstant
  rw [eval_addConstant, sub_eq_add_neg]

theorem eval_addScaled (e f : Linear ν Rat) (k : Rat) (y : ν → Rat) :
    (e.addScaled f k).eval y = e.eval y + k * f.eval y := by
  unfold addScaled
  rw [eval_add, eval_scale]

theorem eval_rename (g : ν → μ) (e : Linear ν Rat) (y : μ → Rat) :
    (e.rename g).eval y = e.eval fun u => y (g u) := by
  unfold eval rename
  rw [List.map_map]
  rfl

end Linear

/-- The constraint that states a definition is about the difference of its sides. -/
theorem Definition.eval_backing (d : Definition Rat) (label : Label) (y : Variable → Rat) :
    (d.backing label).expression.eval y
      = d.lhs.eval (fun x => y x.backing) - d.rhs.eval fun x => y x.backing := by
  change ((d.lhs.rename Handle.backing).addScaled (d.rhs.rename Handle.backing) (-1)).eval y = _
  rw [Linear.eval_addScaled, Linear.eval_rename, Linear.eval_rename]
  ring

/-! ## Expressions as written -/

/-- An expression as it is written down: the operations in the order in which they are applied. -/
inductive Written (ν : Type) where
  /-- A constant and terms in order. -/
  | terms (constant : Rat) (terms : List (ν × Rat))
  | constant (x : Rat)
  | unknown (u : ν)
  /-- One more term, `k * u`. -/
  | withTerm (e : Written ν) (u : ν) (k : Rat)
  | add (e f : Written ν)
  | sub (e f : Written ν)
  | addNumber (e : Written ν) (x : Rat)
  | subNumber (e : Written ν) (x : Rat)
  | neg (e : Written ν)
  | mul (e : Written ν) (k : Rat)

namespace Written

variable {ν : Type}

/-- The expression that the operations build. -/
def build : Written ν → Linear ν Rat
  | terms x ts => .ofTerms x ts
  | constant x => .ofConstant x
  | unknown u => .ofUnknown u
  | withTerm e u k => e.build.addTerm u k
  | add e f => e.build + f.build
  | sub e f => e.build - f.build
  | addNumber e x => e.build.addConstant x
  | subNumber e x => e.build.subConstant x
  | neg e => -e.build
  | mul e k => e.build.scale k

/-- What is written, read as arithmetic. -/
def value (y : ν → Rat) : Written ν → Rat
  | terms x ts => x + (ts.map fun t => t.2 * y t.1).sum
  | constant x => x
  | unknown u => y u
  | withTerm e u k => e.value y + k * y u
  | add e f => e.value y + f.value y
  | sub e f => e.value y - f.value y
  | addNumber e x => e.value y + x
  | subNumber e x => e.value y - x
  | neg e => -e.value y
  | mul e k => e.value y * k

/-- Building an expression keeps what is written. -/
theorem eval_build (e : Written ν) (y : ν → Rat) : e.build.eval y = e.value y := by
  induction e with
  | terms x ts => exact Linear.eval_ofTerms x ts y
  | constant x => exact Linear.eval_ofConstant x y
  | unknown u => exact Linear.eval_ofUnknown u y
  | withTerm e u k ih =>
    rw [build, value, ← ih]
    exact Linear.eval_addTerm e.build u k y
  | add e f ihe ihf =>
    rw [build, value, ← ihe, ← ihf]
    exact Linear.eval_add e.build f.build y
  | sub e f ihe ihf =>
    rw [build, value, ← ihe, ← ihf]
    exact Linear.eval_sub e.build f.build y
  | addNumber e x ih =>
    rw [build, value, ← ih]
    exact Linear.eval_addConstant e.build x y
  | subNumber e x ih =>
    rw [build, value, ← ih]
    exact Linear.eval_subConstant e.build x y
  | neg e ih =>
    rw [build, value, ← ih]
    exact Linear.eval_neg e.build y
  | mul e k ih =>
    rw [build, value, ← ih, mul_comm]
    exact Linear.eval_scale e.build k y

end Written

end BoxLayout
