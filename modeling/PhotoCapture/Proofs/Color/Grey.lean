import PhotoCapture.Proofs.Color.Saturation

namespace PhotoCapture.ColorMatrix

open Binary

variable {w x y z scale offset : Single} {r s : Row Single} {m inner : ColorMatrix Single}

/-- The rows of the three colors are equal up to the sign of zeros. -/
structure Grey (m : ColorMatrix Single) : Prop where
  green : m.green.places = m.red.places
  blue : m.blue.places = m.red.places

theorem Row.places_eq_iff : r.places = s.places ↔ r.red.place = s.red.place ∧
    r.green.place = s.green.place ∧ r.blue.place = s.blue.place ∧
    r.alpha.place = s.alpha.place ∧ r.offset.place = s.offset.place := by
  simp [places, toList]

theorem Row.place_apply_congr (h : r.places = s.places) (color : Rgba Single) :
    (r.apply color).place = (s.apply color).place := by
  obtain ⟨red, green, blue, alpha, offset⟩ := places_eq_iff.mp h
  exact place_add_congr (place_add_congr (place_add_congr (place_add_congr
    (place_mul_congr_left red _) (place_mul_congr_left green _)) (place_mul_congr_left blue _))
    (place_mul_congr_left alpha _)) offset

section Stages

/-- A column of grey rows behind a stage: whichever row takes the factor, the sum is the same. -/
theorem place_column (scale w : Single) (second : y.place = x.place) (third : z.place = x.place) :
    (0 * x + scale * y + 0 * z + 0 * w).place = (scale * x + 0 * y + 0 * z + 0 * w).place ∧
      (0 * x + 0 * y + scale * z + 0 * w).place =
        (scale * x + 0 * y + 0 * z + 0 * w).place := by
  rcases Bool.eq_false_or_eq_true x.isFinite with finite | notFinite
  · have zero {v : Single} (h : v.place = x.place) : (0 * v).place = some 0 :=
      place_zero_mul place_zero ((isFinite_congr h).trans finite)
    have scaled {v : Single} (h : v.place = x.place) : (scale * v).place = (scale * x).place :=
      place_mul_congr rfl h
    refine ⟨place_add_congr_left ?_ _, place_add_congr_left ?_ _⟩
    · rw [place_add_zero (zero third), place_zero_add (zero rfl), place_add_zero (zero third),
        place_add_zero (zero second), scaled second]
    · rw [place_zero_add ((place_zero_add (zero rfl)).trans (zero second)),
        place_add_zero (zero third), place_add_zero (zero second), scaled third]
  · have lost {v : Single} (h : v.place = x.place) : 0 * v = nan :=
      zero_mul_of_not_finite place_zero ((isFinite_congr h).trans notFinite)
    simp [lost rfl, lost second, lost third]

theorem Grey.scaleTranslate (h : m.Grey) (scale offset : Single) :
    (m.followedBy (.scaleTranslate scale offset)).Grey := by
  obtain ⟨g₁, g₂, g₃, g₄, g₅⟩ := Row.places_eq_iff.mp h.green
  obtain ⟨b₁, b₂, b₃, b₄, b₅⟩ := Row.places_eq_iff.mp h.blue
  have red := place_column scale m.alpha.red g₁ b₁
  have green := place_column scale m.alpha.green g₂ b₂
  have blue := place_column scale m.alpha.blue g₃ b₃
  have alpha := place_column scale m.alpha.alpha g₄ b₄
  have last := place_column scale m.alpha.offset g₅ b₅
  constructor
  · exact Row.places_eq_iff.mpr ⟨red.1, green.1, blue.1, alpha.1, place_add_congr_left last.1 _⟩
  · exact Row.places_eq_iff.mpr ⟨red.2, green.2, blue.2, alpha.2, place_add_congr_left last.2 _⟩

theorem grey_saturation {factor : Single} (none : factor.place = some 0) :
    (identity.followedBy (saturation factor)).Grey := by
  obtain ⟨red, green, blue⟩ := colorsFinite_saturation (isFinite_of_place_zero none)
  have unchanged (x : Single) : (x + factor).place = x.place := place_add_zero none
  have sameGreen : (saturation factor).green.places = (saturation factor).red.places :=
    Row.places_eq_iff.mpr ⟨(unchanged _).symm, unchanged _, rfl, rfl, rfl⟩
  have sameBlue : (saturation factor).blue.places = (saturation factor).red.places :=
    Row.places_eq_iff.mpr ⟨(unchanged _).symm, rfl, unchanged _, rfl, rfl⟩
  have before := Row.places_concat_identity red
  exact ⟨(Row.places_concat_identity green).trans (sameGreen.trans before.symm),
    (Row.places_concat_identity blue).trans (sameBlue.trans before.symm)⟩

end Stages

theorem Grey.applyPixels (h : m.Grey) (pixels : List UInt8) {i : Nat}
    (complete : 4 * i + 3 < pixels.length) :
    ∃ grey, (m.applyPixels pixels)[4 * i]? = some grey ∧
      (m.applyPixels pixels)[4 * i + 1]? = some grey ∧
      (m.applyPixels pixels)[4 * i + 2]? = some grey := by
  obtain ⟨r, g, b, a, bytes⟩ := exists_pixel m pixels complete
  let color : Rgba Single := ⟨.ofNat r.toNat, .ofNat g.toNat, .ofNat b.toNat, .ofNat a.toNat⟩
  have green : (m.green.apply color).toByte = (m.red.apply color).toByte :=
    toByte_congr (Row.place_apply_congr h.green color)
  have blue : (m.blue.apply color).toByte = (m.red.apply color).toByte :=
    toByte_congr (Row.place_apply_congr h.blue color)
  refine ⟨(m.red.apply color).toByte, (bytes 0 (by omega)).2, ?_, ?_⟩
  · rw [(bytes 1 (by omega)).2, ← green]
    rfl
  · rw [(bytes 2 (by omega)).2, ← blue]
    rfl

end PhotoCapture.ColorMatrix
