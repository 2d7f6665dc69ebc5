import PhotoCapture.Proofs.Color.Single

namespace PhotoCapture.ColorMatrix

open Binary

variable {factor weight x : Single}

section Rest

theorem single_one : (1.0 : Single) = 1 := by decide +kernel

theorem place_rest (finite : factor.isFinite = true) : (1.0 - factor).place =
    some (Format.single.placeNear ((1 : Single).units - factor.units)) := by
  rw [single_one, place_sub (by decide) finite]

theorem isFinite_rest (finite : factor.isFinite = true) : (1.0 - factor).isFinite = true := by
  rw [single_one]
  exact isFinite_sub_small (by decide) finite (abs_of_nonneg one_units_nonneg).le

theorem units_rest_nonneg (finite : factor.isFinite = true)
    (small : factor.units ≤ (1 : Single).units) : 0 ≤ (1.0 - factor).units :=
  units_nonneg_of_near (isFinite_rest finite) (place_rest finite) (sub_nonneg.mpr small)

theorem units_rest_nonpos (finite : factor.isFinite = true)
    (large : (1 : Single).units ≤ factor.units) : (1.0 - factor).units ≤ 0 :=
  units_nonpos_of_near (isFinite_rest finite) (place_rest finite) (sub_nonpos.mpr large)

end Rest

/-- A number between zero and one. -/
structure IsWeight (weight : Single) : Prop where
  finite : weight.isFinite = true
  nonneg : 0 ≤ weight
  small : weight ≤ 1

namespace IsWeight

variable (w : IsWeight weight)

include w

theorem units_nonneg : 0 ≤ weight.units := Binary.units_nonneg w.finite w.nonneg

theorem units_small : |weight.units| ≤ (1 : Single).units := by
  rw [abs_of_nonneg w.units_nonneg, ← le_iff_units w.finite (by decide)]
  exact w.small

theorem isFinite_mul (finite : x.isFinite = true) : (weight * x).isFinite = true :=
  isFinite_mul_small w.finite finite w.units_small

theorem units_mul_nonneg (finite : x.isFinite = true) (h : 0 ≤ x.units) :
    0 ≤ (weight * x).units := by
  have weight₀ := w.units_nonneg
  exact units_nonneg_of_near (w.isFinite_mul finite) (place_mul w.finite finite) (by positivity)

theorem units_mul_nonpos (finite : x.isFinite = true) (h : x.units ≤ 0) :
    (weight * x).units ≤ 0 := by
  refine units_nonpos_of_near (w.isFinite_mul finite) (place_mul w.finite finite) ?_
  have product := mul_nonpos_of_nonneg_of_nonpos w.units_nonneg h
  exact mul_nonpos_of_nonpos_of_nonneg product (by positivity)

theorem isFinite_channel (finite : factor.isFinite = true) :
    (weight * (1.0 - factor) + factor).isFinite = true := by
  have rest := isFinite_rest finite
  have product := w.isFinite_mul rest
  -- From zero to one the factor is too small to matter, outside the two terms have unlike signs.
  rcases le_total factor.units (1 : Single).units with small | large
  · rcases le_total factor.units 0 with negative | positive
    · rw [Binary.add_comm]
      exact isFinite_add_unlike finite product negative
        (w.units_mul_nonneg rest (units_rest_nonneg finite small))
    · exact isFinite_add_small product finite ((abs_of_nonneg positive).trans_le small)
  · exact isFinite_add_unlike product finite
      (w.units_mul_nonpos rest (units_rest_nonpos finite large)) (one_units_nonneg.trans large)

end IsWeight

theorem isWeight_lumaRed : IsWeight lumaRed :=
  ⟨by decide +kernel, by decide +kernel, by decide +kernel⟩

theorem isWeight_lumaGreen : IsWeight lumaGreen :=
  ⟨by decide +kernel, by decide +kernel, by decide +kernel⟩

theorem isWeight_lumaBlue : IsWeight lumaBlue :=
  ⟨by decide +kernel, by decide +kernel, by decide +kernel⟩

theorem colorsFinite_saturation (finite : factor.isFinite = true) :
    (saturation factor).ColorsFinite := by
  have rest := isFinite_rest finite
  simp only [ColorsFinite, Row.isFinite_iff, saturation, isFinite_zero, and_true,
    isWeight_lumaRed.isFinite_mul rest, isWeight_lumaGreen.isFinite_mul rest,
    isWeight_lumaBlue.isFinite_mul rest, isWeight_lumaRed.isFinite_channel finite,
    isWeight_lumaGreen.isFinite_channel finite, isWeight_lumaBlue.isFinite_channel finite]

end PhotoCapture.ColorMatrix
