-- SUMMARY: Landscape and portrait, and which of the two a size implies.
import BoxLayout.Scalar

/-!
# Orientations

A surface that is at least as wide as high is in landscape, a square one too.
-/

namespace BoxLayout

/-- The orientation of a layout surface. -/
inductive Orientation where
  | landscape
  | portrait
  deriving DecidableEq

namespace Orientation

instance : Inhabited Orientation := ⟨landscape⟩

/-- The orientation that a size implies. A size that cannot be compared counts as portrait. -/
def ofSize {α : Type} [Scalar α] (width height : α) : Orientation :=
  if height ≤ width then landscape else portrait

def text : Orientation → String
  | landscape => "Landscape"
  | portrait => "Portrait"

end Orientation

end BoxLayout
