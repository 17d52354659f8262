-- SUMMARY: Exact rational numbers as a scalar.
import BoxLayout.Scalar

/-!
# Exact rationals

Nothing rounds, so only zero counts as zero, every number is finite and no
number reaches the end of the range.
-/

namespace BoxLayout.Exact

instance : Scalar Rat where
  zero := 0
  one := 1
  isFinite _ := true
  nearZero x := x == 0
  belowLargest _ := true

end BoxLayout.Exact
