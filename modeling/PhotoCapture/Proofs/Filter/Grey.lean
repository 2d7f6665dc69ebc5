import PhotoCapture.Proofs.Color.Grey
import PhotoCapture.Proofs.Filter.Alpha

namespace PhotoCapture.Filter

variable {filter : Filter Single}

theorem grey_brightened (none : filter.saturation.place = some 0) : filter.brightened.Grey :=
  ((ColorMatrix.grey_saturation none).scaleTranslate _ _).scaleTranslate _ _

/-- Without saturation and sepia, every whole pixel comes out with one value for red, green and
blue, whatever brightness and contrast are and whether or not they overflow. -/
theorem unsaturated_pixels_are_grey (filter : Filter Single)
    (none : filter.saturation.equals 0 = true) (plain : filter.sepia = false)
    (pixels : List UInt8) (i : Nat) (whole : 4 * i + 3 < pixels.length) :
    ∃ grey, (filter.matrix.applyPixels pixels)[4 * i]? = some grey ∧
      (filter.matrix.applyPixels pixels)[4 * i + 1]? = some grey ∧
      (filter.matrix.applyPixels pixels)[4 * i + 2]? = some grey := by
  obtain ⟨a, place, zero⟩ := Binary.equals_iff.mp none
  obtain rfl : a = 0 := Option.some.inj (zero.symm.trans Binary.place_zero)
  rw [matrix_eq, if_neg (Bool.eq_false_iff.mp plain)]
  exact (grey_brightened place).applyPixels pixels whole

/-- A contrast and a brightness whose products overflow, behind a negative zero. -/
theorem overflowing_filter_gives_grey :
    let filter : Filter Single := ⟨3e38, 3e38, -0, false⟩
    let pixels : List UInt8 := [16, 32, 48, 64, 250, 3, 77, 255, 9]
    filter.saturation.equals 0 = true ∧ filter.sepia = false ∧ 4 * 1 + 3 < pixels.length ∧
      ∃ grey, (filter.matrix.applyPixels pixels)[4 * 1]? = some grey ∧
        (filter.matrix.applyPixels pixels)[4 * 1 + 1]? = some grey ∧
        (filter.matrix.applyPixels pixels)[4 * 1 + 2]? = some grey := by
  intro filter pixels
  have none : filter.saturation.equals 0 = true := by decide
  have whole : 4 * 1 + 3 < pixels.length := by decide
  exact ⟨none, rfl, whole, unsaturated_pixels_are_grey filter none rfl pixels 1 whole⟩

end PhotoCapture.Filter
