import PhotoCapture.Color.Matrix

namespace PhotoCapture

structure Filter (α : Type) where
  brightness : α
  contrast : α
  saturation : α
  sepia : Bool
deriving DecidableEq

namespace Filter

variable {α : Type} [Zero α] [One α] [OfScientific α] [Add α] [Sub α] [Mul α] [Neg α]

def neutral : Filter α := ⟨1, 1, 1, false⟩

/-- The matrix of the whole filter. -/
def matrix (filter : Filter α) : ColorMatrix α :=
  let factors := ((ColorMatrix.identity.followedBy (.saturation filter.saturation)).followedBy
    (.contrast filter.contrast)).followedBy (.brightness filter.brightness)
  if filter.sepia then factors.followedBy .sepia else factors

end Filter

end PhotoCapture
