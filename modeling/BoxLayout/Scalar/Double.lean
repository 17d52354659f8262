-- SUMMARY: Binary floating point of double width as a scalar.
import BoxLayout.Scalar

/-!
# Double-width floating point

Rounding leaves small residues where exact arithmetic would give zero, so a
result counts as zero when its magnitude is below `1e-8`.
-/

namespace BoxLayout.Double

/-- The magnitude below which a computed number counts as zero. -/
def tolerance : Float := 1e-8

/-- The largest finite number, `(2 - 2⁻⁵²) · 2¹⁰²³`. -/
def largest : Float := Float.ofBits 0x7fefffffffffffff

instance : Scalar Float where
  zero := 0.0
  one := 1.0
  natCast := Float.ofNat
  isFinite := Float.isFinite
  nearZero x := x.abs < tolerance
  belowLargest x := x < largest

end BoxLayout.Double
