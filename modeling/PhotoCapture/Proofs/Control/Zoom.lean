import PhotoCapture.Control.Basic
import PhotoCapture.Proofs.Binary.Neutral

namespace PhotoCapture

theorem linearZoom_range (factor : Single) :
    (0 : Single) ≤ linearZoom factor ∧ linearZoom factor ≤ (1 : Single) := by
  have bounds : (0 : Single) ≤ 1 := by decide
  have least : (0 : Single) ≤ 0 := by decide
  simp only [linearZoom]
  split
  next => exact ⟨least, bounds⟩
  next number => exact Binary.clamp_between (by simpa using number) bounds

open Binary

variable {x y : Single}

theorem isFinite_sub_one (hx : x.isFinite = true) : (x - 1.0).isFinite = true := by
  refine isFinite_of_near (place_sub hx (by decide)) (rankNear_lt_infinity ?_)
  have one : (1.0 : Single) = 1 := by decide
  have most := abs_units_le hx
  have parts := abs_sub x.units (1 : Single).units
  rw [abs_of_nonneg one_units_nonneg] at parts
  rw [one]
  linarith

theorem range_positive : 0 < (4.0 - 1.0 : Single).units := by
  by_contra negative
  rw [not_lt, ← units_zero, ← le_iff_units (by decide) (by decide)] at negative
  exact absurd negative (by decide)

theorem scaled_le_scaled (hx : x.isFinite = true) (hy : y.isFinite = true) (h : x ≤ y) :
    (x - 1.0) / (4.0 - 1.0) ≤ (y - 1.0) / (4.0 - 1.0) :=
  Binary.div_le_div_right (isFinite_sub_one hx) (isFinite_sub_one hy) (by decide) range_positive
    (Binary.sub_le_sub_right hx hy (by decide) h)

theorem linearZoom_of_number {a : Int}
    (h : ((x - 1.0) / (4.0 - 1.0)).place = some a) :
    linearZoom x = ((x - 1.0) / (4.0 - 1.0)).clamp 0 1 := by
  rw [linearZoom, isNan_of_place h]
  rfl

theorem linearZoom_le_linearZoom (h : x ≤ y) : linearZoom x ≤ linearZoom y := by
  obtain ⟨a, b, ha, hb, le⟩ := le_iff.mp h
  have number : x ≠ nan := fun none => by simp [none, place] at ha
  have number' : y ≠ nan := fun none => by simp [none, place] at hb
  rcases finite_or_infinite number with hx | rfl | rfl
  · rcases finite_or_infinite number' with hy | rfl | rfl
    · have scaled := scaled_le_scaled hx hy h
      obtain ⟨c, d, hc, hd, -⟩ := le_iff.mp scaled
      rw [linearZoom_of_number hc, linearZoom_of_number hd]
      exact clamp_le_clamp (by decide) scaled
    · exact absurd h (not_le_infinite hx)
    · have top : linearZoom (infinite false) = 1 := by decide
      rw [top]
      exact (linearZoom_range x).2
  · have bottom : linearZoom (infinite true) = 0 := by decide
    rw [bottom]
    exact (linearZoom_range y).1
  · rcases finite_or_infinite number' with hy | rfl | rfl
    · exact absurd h (not_infinite_le hy)
    · exact absurd h (by decide)
    · decide

/-- The greatest number below one. -/
def belowOne : Single := ofRank false (Format.single.one - 1)

theorem le_belowOne (h : x ≤ 1) (unequal : x ≠ 1) : x ≤ belowOne := by
  have one : (1 : Single).place = some (Format.single.one : Int) := by decide
  have step : belowOne.place = some ((Format.single.one : Int) - 1) := by decide
  obtain ⟨a, ha, le⟩ := (le_iff_of_place_right one).mp h
  have differ : a ≠ Format.single.one := fun same =>
    unequal (eq_of_place_eq (by rw [one, ha, same]) (by decide)).symm
  exact (le_iff_of_places ha step).mpr (by omega)

/-- The factors up to one give the least linear zoom, and it is the positive zero. -/
theorem linearZoom_eq_zero (h : x ≤ 1) : linearZoom x = 0 := by
  by_cases equal : x = 1
  · rw [equal]
    decide
  have number : x ≠ nan := fun none => by
    rw [none] at h
    exact absurd h (by decide)
  rcases finite_or_infinite number with hx | rfl | rfl
  · have negative : (belowOne - 1.0) / (4.0 - 1.0) < (0 : Single) := by decide
    have scaled := scaled_le_scaled hx (by decide) (le_belowOne h equal)
    have below := Binary.lt_of_le_of_lt scaled negative
    obtain ⟨a, -, ha, -⟩ := lt_iff.mp below
    rw [linearZoom_of_number ha, clamp, if_pos below]
  · decide
  · exact absurd h (by decide)

theorem linearZoom_eq_one (h : 4.0 ≤ x) : linearZoom x = 1 := by
  have four : linearZoom 4.0 = 1 := by decide
  have least : 1 ≤ linearZoom x := four ▸ linearZoom_le_linearZoom h
  exact (eq_of_place_eq (place_eq_of_le_of_le least (linearZoom_range x).2) (by decide)).symm

end PhotoCapture
