import PhotoCapture.Filter.Basic
import PhotoCapture.Proofs.Color.Identity

namespace PhotoCapture.Filter

open ColorMatrix (identity)

variable {filter : Filter Single}

/-- The stages one after another, from the saturation matrix on. -/
def staged (filter : Filter Single) : ColorMatrix Single :=
  let factors := ((ColorMatrix.saturation filter.saturation).followedBy
    (.contrast filter.contrast)).followedBy (.brightness filter.brightness)
  if filter.sepia then factors.followedBy .sepia else factors

theorem matrix_agrees_staged (finite : filter.saturation.isFinite = true) :
    filter.matrix.Agrees filter.staged := by
  have saturated := ColorMatrix.agrees_concat_identity (ColorMatrix.isFinite_saturation finite)
  have factors := (saturated.followedBy (.contrast filter.contrast)).followedBy
    (.brightness filter.brightness)
  unfold matrix staged
  dsimp only
  split
  next => exact factors.followedBy .sepia
  next => exact factors

/-- On either side of a finite matrix the identity changes no coefficient as a number. So the matrix
of a filter agrees with its stages without the identity in front, whether or not they overflow. A
picture stays as it is, byte by byte. -/
theorem identity_changes_nothing :
    (∀ m : ColorMatrix Single, m.IsFinite →
      (m.concat identity).equals m = true ∧ (identity.concat m).equals m = true) ∧
    (∀ filter : Filter Single, filter.saturation.isFinite = true →
      filter.matrix.Agrees filter.staged) ∧
    ∀ pixels : List UInt8, (identity : ColorMatrix Single).applyPixels pixels = pixels :=
  ⟨fun _ finite => ⟨(ColorMatrix.agrees_concat_identity finite).equals finite,
      (ColorMatrix.agrees_identity_concat finite).equals finite⟩,
    fun _ => matrix_agrees_staged, ColorMatrix.applyPixels_identity⟩

/-- A matrix with the greatest and the least magnitude and a negative zero, a filter whose contrast
and brightness overflow, and a picture with an incomplete pixel. -/
theorem identity_beside_extremes :
    let greatest : Single := .ofBits 0x7f7fffff
    let least : Single := .ofBits 1
    let m : ColorMatrix Single :=
      ⟨⟨greatest, -0, least, -greatest, -least⟩, ⟨-0, -greatest, 0.1, least, greatest⟩,
        ⟨-least, greatest, -0, 255.0, -0⟩, ⟨greatest, -0.3, -0, 1, -greatest⟩⟩
    let filter : Filter Single := ⟨3e38, 3e38, 0.5, true⟩
    (m.IsFinite ∧ (m.concat identity).equals m = true ∧ (identity.concat m).equals m = true) ∧
      (filter.saturation.isFinite = true ∧ filter.matrix.Agrees filter.staged) ∧
      (identity : ColorMatrix Single).applyPixels [0, 1, 128, 255, 7, 9] =
        [0, 1, 128, 255, 7, 9] := by
  intro greatest least m filter
  have finite : m.IsFinite := by decide +kernel
  have saturation : filter.saturation.isFinite = true := by decide +kernel
  exact ⟨⟨finite, identity_changes_nothing.1 m finite⟩,
    ⟨saturation, identity_changes_nothing.2.1 filter saturation⟩,
    identity_changes_nothing.2.2 _⟩

end PhotoCapture.Filter
