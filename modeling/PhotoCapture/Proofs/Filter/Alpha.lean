import PhotoCapture.Filter.Description
import PhotoCapture.Proofs.Color.Alpha
import PhotoCapture.Proofs.Color.Bounds
import PhotoCapture.Proofs.Color.Saturation
import PhotoCapture.Proofs.Filter.Description

namespace PhotoCapture.Filter

open ColorMatrix (Row)

variable {filter : Filter Single}

/-- The matrix of the first stage. -/
def saturated (filter : Filter Single) : ColorMatrix Single :=
  ColorMatrix.identity.followedBy (.saturation filter.saturation)

/-- The matrix up to contrast. -/
def contrasted (filter : Filter Single) : ColorMatrix Single :=
  filter.saturated.followedBy (.contrast filter.contrast)

/-- The matrix up to brightness. -/
def brightened (filter : Filter Single) : ColorMatrix Single :=
  filter.contrasted.followedBy (.brightness filter.brightness)

theorem matrix_eq (filter : Filter Single) : filter.matrix =
    if filter.sepia then filter.brightened.followedBy .sepia else filter.brightened := rfl

/-- The colors are finite before the stages that follow contrast, as they always are before it. -/
def StaysFinite (filter : Filter Single) : Prop :=
  filter.contrasted.ColorsFinite ∧ (filter.sepia = true → filter.brightened.ColorsFinite)

instance (filter : Filter Single) : Decidable filter.StaysFinite :=
  inferInstanceAs (Decidable (_ ∧ (_ → _)))

theorem colorsFinite_saturated (h : filter.IsFinite) : filter.saturated.ColorsFinite :=
  (ColorMatrix.colorsFinite_saturation h.saturation).concat_identity

theorem keepsAlpha_contrasted (h : filter.IsFinite) : filter.contrasted.alpha.KeepsAlpha := by
  have identity : (ColorMatrix.identity : ColorMatrix Single).alpha.KeepsAlpha := by decide
  have saturated : filter.saturated.alpha.KeepsAlpha :=
    ColorMatrix.keepsAlpha_concat identity (by decide)
  exact ColorMatrix.keepsAlpha_concat saturated (colorsFinite_saturated h)

theorem keepsAlpha_matrix (h : filter.IsFinite) (finite : filter.StaysFinite) :
    filter.matrix.alpha.KeepsAlpha := by
  have brightened : filter.brightened.alpha.KeepsAlpha :=
    ColorMatrix.keepsAlpha_concat (keepsAlpha_contrasted h) finite.1
  rw [matrix_eq]
  split
  next sepia => exact ColorMatrix.keepsAlpha_concat brightened (finite.2 sepia)
  next => exact brightened

/-- A last row of numbers shows that no color overflowed before a stage. -/
theorem staysFinite_of_not_spoilt (h : ¬ filter.matrix.alpha.Spoilt) : filter.StaysFinite := by
  rw [matrix_eq] at h
  split at h
  next sepia =>
    obtain ⟨finite, clean⟩ := ColorMatrix.clean_of_concat h
    exact ⟨(ColorMatrix.clean_of_concat clean).1, fun _ => finite⟩
  next plain => exact ⟨(ColorMatrix.clean_of_concat h).1, fun sepia => absurd sepia plain⟩

/-- Every factor is at most a billion in magnitude. -/
structure Moderate (filter : Filter Single) : Prop where
  brightness : filter.brightness.abs ≤ 1e9
  contrast : filter.contrast.abs ≤ 1e9
  saturation : filter.saturation.abs ≤ 1e9

theorem within_of_abs_le {x : Single} (h : x.abs ≤ 1e9) : Binary.Within 30 x :=
  Binary.Within.of_abs_le ⟨by decide +kernel, by decide +kernel⟩ h

/-- Moderate factors leave room for the coefficients of all stages. -/
theorem staysFinite_of_moderate (h : filter.Moderate) : filter.StaysFinite := by
  -- A billion is below `2 ^ 30`. A stage adds its own exponent and four for the sums.
  have saturated : filter.saturated.IsWithin 36 :=
    (ColorMatrix.within_saturation (within_of_abs_le h.saturation) (by decide)).concat
      ColorMatrix.within_identity (by decide)
  have contrasted : filter.contrasted.IsWithin 79 :=
    (ColorMatrix.within_contrast (within_of_abs_le h.contrast) (by decide)).concat saturated
      (by decide)
  have brightened : filter.brightened.IsWithin 113 :=
    (ColorMatrix.within_scaleTranslate (within_of_abs_le h.brightness)
      (ColorMatrix.within_zero 30)).concat contrasted (by decide)
  exact ⟨contrasted.colorsFinite, fun _ => brightened.colorsFinite⟩

/-- For every description, the matrix passes alpha through exactly when no color overflows before
a stage, which moderate factors guarantee. If one does, every alpha byte becomes zero. -/
theorem alpha_of_description (text : String) :
    let filter := ofDescription text
    (filter.matrix.alpha.equals Row.keepAlpha = true ↔ filter.StaysFinite) ∧
    (∀ (pixels : List UInt8) (i : Nat), i % 4 = 3 →
      (filter.matrix.applyPixels pixels)[i]? =
        pixels[i]?.map fun alpha => if filter.StaysFinite then alpha else 0) ∧
    (filter.Moderate → filter.StaysFinite) := by
  intro filter
  have h : filter.IsFinite := isFinite_ofElements _
  refine ⟨⟨fun keeps => ?_, keepsAlpha_matrix h⟩, fun pixels i hi => ?_, staysFinite_of_moderate⟩
  · exact staysFinite_of_not_spoilt (Row.KeepsAlpha.not_spoilt keeps)
  · by_cases finite : filter.StaysFinite
    · simp only [finite, if_true, Option.map_id']
      exact ColorMatrix.getElem?_applyPixels_of_keepsAlpha (keepsAlpha_matrix h finite) pixels hi
    · simp only [finite, if_false]
      have spoilt : filter.matrix.alpha.Spoilt :=
        not_not.mp fun clean => finite (staysFinite_of_not_spoilt clean)
      exact ColorMatrix.getElem?_applyPixels_of_spoilt spoilt pixels hi

/-- A moderate contrast keeps the alpha of a pixel. -/
theorem double_contrast_keeps_alpha :
    (ofDescription "<filter name='contrast' value='2'/>").matrix.alpha.equals Row.keepAlpha = true ∧
      ((ofDescription "<filter name='contrast' value='2'/>").matrix.applyPixels
        [16, 32, 48, 64])[3]? = some 64 := by
  have finite : (ofDescription "<filter name='contrast' value='2'/>").StaysFinite :=
    (alpha_of_description _).2.2
      ⟨by decide +kernel, by decide +kernel, by decide +kernel⟩
  have pixel := (alpha_of_description "<filter name='contrast' value='2'/>").2.1
    [16, 32, 48, 64] 3 rfl
  exact ⟨(alpha_of_description _).1.mpr finite, pixel.trans (by simp [finite])⟩

/-- A contrast that overflows in the offset clears the alpha of every pixel. -/
theorem huge_contrast_clears_alpha :
    let matrix := (ofDescription "<filter name='contrast' value='3e38'/>").matrix
    matrix.alpha.equals Row.keepAlpha = false ∧
      matrix.applyPixels [16, 32, 48, 255] = [0, 0, 0, 0] := by
  decide +kernel

end PhotoCapture.Filter
