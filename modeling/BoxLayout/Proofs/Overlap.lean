-- SUMMARY: The common part of two boxes is the intersection of what they contain.
import Mathlib.Algebra.Order.Field.Rat
import Mathlib.Order.Lattice
import Mathlib.Tactic.Linarith
import BoxLayout.Box
import BoxLayout.Scalar.Exact

/-!
# Overlapping boxes

A box is told by its four sides. Over exact numbers the common part of two boxes has the
greater left and top sides and the lesser right and bottom sides, and it exists if these
sides leave it an area: `intersect_eq_some_iff`. What is known of maxima and minima then
carries over: containment, and the order in which boxes are overlapped.

No size is asked to be positive. A box without area has no part in common with any box.
-/

namespace BoxLayout

theorem Scalar.larger_eq_max (a b : Rat) : larger a b = max a b := by
  unfold larger
  split
  · next h => exact (max_eq_left h.le).symm
  · next h =>
    rw [if_pos (beq_self_eq_true b)]
    exact (max_eq_right (not_lt.1 h)).symm

theorem Scalar.smaller_eq_min (a b : Rat) : smaller a b = min a b := by
  unfold smaller
  split
  · next h => exact (min_eq_left h.le).symm
  · next h =>
    rw [if_pos (beq_self_eq_true b)]
    exact (min_eq_right (not_lt.1 h)).symm

namespace Box

variable {a b c r : Box Rat} {x y : Rat}

/-! ## Boxes by their sides -/

/-- The point lies in the box and on none of its sides. -/
def Surrounds (b : Box Rat) (x y : Rat) : Prop :=
  (b.x < x ∧ x < b.right) ∧ b.y < y ∧ y < b.bottom

/-- The box has an area. -/
def Solid (b : Box Rat) : Prop := 0 < b.width ∧ 0 < b.height

theorem solid_iff : b.Solid ↔ b.x < b.right ∧ b.y < b.bottom := by
  unfold Solid right bottom
  rw [lt_add_iff_pos_right, lt_add_iff_pos_right]

theorem contains_iff :
    b.contains x y = true ↔ (b.x ≤ x ∧ x ≤ b.right) ∧ b.y ≤ y ∧ y ≤ b.bottom := by
  unfold contains
  simp only [Bool.and_eq_true, decide_eq_true_eq, and_assoc]

/-- A box is told by its sides. -/
theorem ext_sides (hx : a.x = b.x) (hy : a.y = b.y) (hright : a.right = b.right)
    (hbottom : a.bottom = b.bottom) : a = b := by
  unfold right at hright
  unfold bottom at hbottom
  obtain ⟨ax, ay, aw, ah⟩ := a
  obtain ⟨bx, bY, bw, bh⟩ := b
  dsimp only at hx hy hright hbottom
  subst hx hy
  rw [add_left_cancel hright, add_left_cancel hbottom]

/-! ## The common part -/

/-- The sides of the common part of two boxes. -/
structure Joins (a b r : Box Rat) : Prop where
  x : r.x = max a.x b.x
  y : r.y = max a.y b.y
  right : r.right = min a.right b.right
  bottom : r.bottom = min a.bottom b.bottom

theorem intersect_eq (a b : Box Rat) : a.intersect b =
    if max a.x b.x < min a.right b.right ∧ max a.y b.y < min a.bottom b.bottom then
      some ⟨max a.x b.x, max a.y b.y, min a.right b.right - max a.x b.x,
        min a.bottom b.bottom - max a.y b.y⟩
    else none := by
  unfold intersect
  simp only [Scalar.larger_eq_max, Scalar.smaller_eq_min]

/-- The common part has the inner sides of both boxes, and it has an area. -/
theorem intersect_eq_some_iff : a.intersect b = some r ↔ Joins a b r ∧ r.Solid := by
  rw [intersect_eq]
  constructor
  · intro h
    split at h
    · next hsides =>
      obtain rfl := Option.some.inj h
      refine ⟨⟨rfl, rfl, add_sub_cancel _ _, add_sub_cancel _ _⟩, ?_⟩
      exact ⟨sub_pos.2 hsides.1, sub_pos.2 hsides.2⟩
    · cases h
  · rintro ⟨⟨hx, hy, hright, hbottom⟩, hsolid⟩
    rw [solid_iff, hx, hy, hright, hbottom] at hsolid
    rw [if_pos hsolid]
    refine congrArg some (ext_sides hx.symm hy.symm ?_ ?_)
    · rw [hright]
      exact add_sub_cancel _ _
    · rw [hbottom]
      exact add_sub_cancel _ _

theorem intersect_eq_none_iff : a.intersect b = none ↔
    min a.right b.right ≤ max a.x b.x ∨ min a.bottom b.bottom ≤ max a.y b.y := by
  rw [intersect_eq, ite_eq_right_iff]
  simp only [reduceCtorEq, imp_false, not_and_or, not_lt]

namespace Joins

theorem symm (h : Joins a b r) : Joins b a r where
  x := by rw [h.x, max_comm]
  y := by rw [h.y, max_comm]
  right := by rw [h.right, min_comm]
  bottom := by rw [h.bottom, min_comm]

theorem self (a : Box Rat) : Joins a a a :=
  ⟨(max_self _).symm, (max_self _).symm, (min_self _).symm, (min_self _).symm⟩

theorem contains (h : Joins a b r) :
    r.contains x y = true ↔ a.contains x y = true ∧ b.contains x y = true := by
  simp only [contains_iff, h.x, h.y, h.right, h.bottom, max_le_iff, le_min_iff]
  tauto

end Joins

/-- Without a common part the insides of two boxes have no point in common. -/
theorem not_surrounds_of_intersect_eq_none (h : a.intersect b = none) :
    ¬(a.Surrounds x y ∧ b.Surrounds x y) := by
  rintro ⟨⟨⟨hax, hxa⟩, hay, hya⟩, ⟨hbx, hxb⟩, hby, hyb⟩
  obtain hx | hy := intersect_eq_none_iff.1 h
  · exact absurd ((max_lt hax hbx).trans (lt_min hxa hxb)) (not_lt.2 hx)
  · exact absurd ((max_lt hay hby).trans (lt_min hya hyb)) (not_lt.2 hy)

/-! ## Overlapping several boxes -/

theorem intersect_comm (a b : Box Rat) : a.intersect b = b.intersect a := by
  apply Option.ext
  intro r
  rw [intersect_eq_some_iff, intersect_eq_some_iff]
  exact and_congr_left fun _ => ⟨Joins.symm, Joins.symm⟩

theorem intersect_self (h : a.Solid) : a.intersect a = some a :=
  intersect_eq_some_iff.2 ⟨Joins.self a, h⟩

/-- The common part of three boxes has the innermost sides of all of them. -/
theorem bind_intersect_eq_some_iff :
    ((a.intersect b).bind fun m => m.intersect c) = some r ↔
      (r.x = max (max a.x b.x) c.x ∧ r.y = max (max a.y b.y) c.y ∧
        r.right = min (min a.right b.right) c.right ∧
        r.bottom = min (min a.bottom b.bottom) c.bottom) ∧ r.Solid := by
  rw [Option.bind_eq_some_iff]
  constructor
  · rintro ⟨m, hm, hr⟩
    obtain ⟨hab, -⟩ := intersect_eq_some_iff.1 hm
    obtain ⟨hmc, hsolid⟩ := intersect_eq_some_iff.1 hr
    rw [← hab.x, ← hab.y, ← hab.right, ← hab.bottom]
    exact ⟨⟨hmc.x, hmc.y, hmc.right, hmc.bottom⟩, hsolid⟩
  · rintro ⟨⟨hx, hy, hright, hbottom⟩, hsolid⟩
    -- sides that leave an area to three boxes leave one to the first two
    have hsides := solid_iff.1 hsolid
    rw [hx, hy, hright, hbottom] at hsides
    have hab : max a.x b.x < min a.right b.right ∧ max a.y b.y < min a.bottom b.bottom :=
      ⟨(le_max_left _ _).trans_lt (hsides.1.trans_le (min_le_left _ _)),
        (le_max_left _ _).trans_lt (hsides.2.trans_le (min_le_left _ _))⟩
    have hm := intersect_eq a b
    rw [if_pos hab] at hm
    obtain ⟨hjoins, -⟩ := intersect_eq_some_iff.1 hm
    refine ⟨_, hm, intersect_eq_some_iff.2 ⟨⟨?_, ?_, ?_, ?_⟩, hsolid⟩⟩
    · rw [hx, hjoins.x]
    · rw [hy, hjoins.y]
    · rw [hright, hjoins.right]
    · rw [hbottom, hjoins.bottom]

/-- Overlapping is associative where no common part stays none. -/
theorem intersect_assoc (a b c : Box Rat) :
    ((a.intersect b).bind fun m => m.intersect c)
      = (b.intersect c).bind fun m => a.intersect m := by
  have hmax (p q s : Rat) : max (max q s) p = max (max p q) s := by rw [max_comm, max_assoc]
  have hmin (p q s : Rat) : min (min q s) p = min (min p q) s := by rw [min_comm, min_assoc]
  simp only [intersect_comm a]
  rw [intersect_comm b a]
  apply Option.ext
  intro r
  rw [bind_intersect_eq_some_iff, bind_intersect_eq_some_iff, hmax a.x, hmax a.y, hmin a.right,
    hmin a.bottom]

/-! ## Overlap as intersection -/

/-- The common part of two boxes has an area and contains the points that both boxes contain;
without one, no point lies strictly inside both. Overlapping is commutative and associative,
and a box with an area overlaps itself in itself. -/
theorem intersect_is_intersection (a b c : Box Rat) :
    (∀ r, a.intersect b = some r → (0 < r.width ∧ 0 < r.height) ∧
      ∀ x y, r.contains x y = true ↔ a.contains x y = true ∧ b.contains x y = true) ∧
    (a.intersect b = none → ∀ x y, ¬(a.Surrounds x y ∧ b.Surrounds x y)) ∧
    a.intersect b = b.intersect a ∧
    (0 < a.width ∧ 0 < a.height → a.intersect a = some a) ∧
    ((a.intersect b).bind fun m => m.intersect c)
      = (b.intersect c).bind fun m => a.intersect m := by
  refine ⟨fun r hr => ?_, fun h x y => not_surrounds_of_intersect_eq_none h, intersect_comm a b,
    intersect_self, intersect_assoc a b c⟩
  obtain ⟨hjoins, hsolid⟩ := intersect_eq_some_iff.1 hr
  exact ⟨hsolid, fun x y => hjoins.contains⟩

/-- A corner that two boxes share, and a side on which two boxes touch: there they have points
in common and no common part. -/
theorem intersect_is_intersection_corner :
    let a : Box Rat := ⟨0, 0, 10, 10⟩
    let b : Box Rat := ⟨5, 5, 10, 10⟩
    let c : Box Rat := ⟨10, 0, 5, 5⟩
    a.intersect b = some ⟨5, 5, 5, 5⟩ ∧
      (∀ x y, (⟨5, 5, 5, 5⟩ : Box Rat).contains x y = true
        ↔ a.contains x y = true ∧ b.contains x y = true) ∧
      a.intersect c = none ∧ ∀ x y, ¬(a.Surrounds x y ∧ c.Surrounds x y) := by
  intro a b c
  have hcorner : a.intersect b = some ⟨5, 5, 5, 5⟩ := by decide +kernel
  have htouch : a.intersect c = none := by decide +kernel
  exact ⟨hcorner, ((intersect_is_intersection a b c).1 _ hcorner).2, htouch,
    (intersect_is_intersection a c b).2.1 htouch⟩

end Box

end BoxLayout
