-- SUMMARY: The number type the layout code is parametric in, and the few operations derived from it.

/-!
# Scalars

Boxes, expressions and tableaux are written over any `Scalar`. The class asks
for operations only and for no law, so a statement about all scalars holds also
for arithmetic that rounds, overflows or yields something that is no number.
Laws come from an instance: binary floating point in `Scalar/Double.lean`, exact
rationals in `Scalar/Exact.lean`.

Comparisons are decidable propositions. `==` is the comparison of numbers, which
need not be equality of representations.
-/

namespace BoxLayout

/-- A type of numbers to compute layouts with. -/
class Scalar (α : Type) extends Zero α, One α, NatCast α, Add α, Sub α, Neg α, Mul α, Div α,
    LT α, LE α, BEq α where
  [ltDecidable : DecidableLT α]
  [leDecidable : DecidableLE α]
  /-- The number is neither infinite nor undefined. -/
  isFinite : α → Bool
  /-- The number counts as zero when it has been computed. -/
  nearZero : α → Bool
  /-- The number lies below the largest finite one. -/
  belowLargest : α → Bool

attribute [reducible, instance] Scalar.ltDecidable Scalar.leDecidable

export Scalar (isFinite nearZero belowLargest)

variable {α : Type} [Scalar α]

namespace Scalar

/-- The larger of two numbers, and of equal ones the second, which tells zeros of
different sign apart. An undefined one gives way to the other. -/
def larger (a b : α) : α :=
  if b < a then a else if b == b then b else a

/-- The smaller of two numbers, and of equal ones the second. An undefined one gives
way to the other. -/
def smaller (a b : α) : α :=
  if a < b then a else if b == b then b else a

/-- The nearest number between two bounds. An undefined one stays undefined. -/
def clamp (lo hi x : α) : α :=
  if x < lo then lo else if hi < x then hi else x

/-- The distance from zero. -/
def magnitude (x : α) : α :=
  if x < 0 then -x else x

end Scalar

end BoxLayout
