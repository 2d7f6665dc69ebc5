import PhotoCapture.Color.Matrix
import Mathlib.Tactic.Ring

namespace PhotoCapture.ColorMatrix

variable {K : Type} [CommRing K]

@[simp] theorem Row.apply_concat (r : Row K) (inner : ColorMatrix K) (x : Rgba K) :
    (r.concat inner).apply x = r.apply (inner.apply x) := by
  simp only [Row.apply, Row.concat, ColorMatrix.apply]
  ring

/-- A matrix after another one applies the inner one first. -/
@[simp] theorem apply_concat (outer inner : ColorMatrix K) (x : Rgba K) :
    (concat outer inner).apply x = outer.apply (inner.apply x) := by
  simp [apply, concat]

@[simp] theorem apply_identity (x : Rgba K) : (identity : ColorMatrix K).apply x = x := by
  simp [apply, Row.apply, identity, Row.keepAlpha]

end PhotoCapture.ColorMatrix
