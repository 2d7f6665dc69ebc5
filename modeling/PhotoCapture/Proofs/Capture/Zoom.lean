import PhotoCapture.Capture.Call
import PhotoCapture.Proofs.Control.Zoom

namespace PhotoCapture

open Binary

namespace Call

variable {z w : Double}

/-- The least factor that is rounded to an infinity in 32 bits. -/
def factorLimit : Double := ofNat (2 ^ 128 - 2 ^ 103)

/-- The greatest number below the limit. -/
def belowLimit : Double := ofRank false 0x47efffffefffffff

theorem le_belowLimit (h : z < factorLimit) : z ≤ belowLimit := by
  have limit : factorLimit.place = some 0x47effffff0000000 := by decide
  have step : belowLimit.place = some (0x47effffff0000000 - 1) := by decide
  obtain ⟨a, -, ha, -⟩ := lt_iff.mp h
  have less := (lt_iff_of_places ha limit).mp h
  exact (le_iff_of_places ha step).mpr (by omega)

theorem factor_of_lt_limit (finite : z.isFinite = true) (low : 1 ≤ z) (high : z < factorLimit) :
    factor z = z.convert := by
  have least := convert_le_convert (g := .single) (by decide) finite low
  have most := convert_le_convert (g := .single) finite (by decide) (le_belowLimit high)
  have between := isFinite_of_between (by decide) (by decide) least most
  rw [factor, if_pos between]

theorem factor_of_limit_le (finite : z.isFinite = true) (high : factorLimit ≤ z) :
    factor z = 1 := by
  have most := convert_le_convert (g := .single) (by decide) finite high
  have top : (factorLimit.convert : Single) = infinite false := by decide
  rw [factor, if_neg fun below => not_infinite_le below (top ▸ most)]

theorem factor_le_one (finite : z.isFinite = true) (low : z ≤ 1) : factor z ≤ 1 := by
  have one : ((1 : Double).convert : Single) = 1 := by decide
  rw [factor]
  split
  · exact one ▸ convert_le_convert finite (by decide) low
  · decide

theorem four_le_factor (finite : z.isFinite = true) (low : 4.0 ≤ z) (high : z < factorLimit) :
    4.0 ≤ factor z := by
  have four : ((4.0 : Double).convert : Single) = 4.0 := by decide
  have one : (1 : Double) ≤ z := Binary.le_trans (by decide) low
  rw [factor_of_lt_limit finite one high, ← four]
  exact convert_le_convert (by decide) finite low

theorem isNan_of_finite (finite : z.isFinite = true) : z.isNan = false := by
  obtain ⟨a, ha, -⟩ := isFinite_iff_place.mp finite
  exact isNan_of_place ha

def linearZoom (call : Call) : Single := call.request.controls.linearZoom

theorem linearZoom_eq {call : Call} (h : call.zoom = some z) :
    call.linearZoom = PhotoCapture.linearZoom (factor z) := by
  simp [linearZoom, request, Request.controls, Controls.ofParameters, h]

/-- Factors below the limit are held between one and four, and the linear zoom grows with them;
factors from the limit on give the least zoom. -/
theorem linearZoom_clamps_below_limit {call other : Call} (here : call.zoom = some z)
    (there : other.zoom = some w) (finite : z.isFinite = true) (finite' : w.isFinite = true) :
    (z ≤ 1 → call.linearZoom = 0) ∧ (4.0 ≤ z → z < factorLimit → call.linearZoom = 1) ∧
      (factorLimit ≤ z → call.linearZoom = 0) ∧
      (z ≤ w → w < factorLimit → call.linearZoom ≤ other.linearZoom) := by
  rw [linearZoom_eq here, linearZoom_eq there]
  refine ⟨fun low => ?_, fun low high => ?_, fun high => ?_, fun order high => ?_⟩
  · exact linearZoom_eq_zero (factor_le_one finite low)
  · exact linearZoom_eq_one (four_le_factor finite low high)
  · rw [factor_of_limit_le finite high]
    exact linearZoom_eq_zero (by decide)
  · rcases Binary.le_total (isNan_of_finite finite) (y := 1) rfl with low | low
    · rw [linearZoom_eq_zero (factor_le_one finite low)]
      exact (linearZoom_range _).1
    · rw [factor_of_lt_limit finite low (Binary.lt_of_le_of_lt order high),
        factor_of_lt_limit finite' (Binary.le_trans low order) high]
      exact linearZoom_le_linearZoom (convert_le_convert finite finite' order)

/-- A factor between the ends of the range, and one far beyond the range. -/
theorem half_and_full_zoom :
    ({ zoom := some 2.5 } : Call).linearZoom ≤ ({ zoom := some 1e38 } : Call).linearZoom ∧
      ({ zoom := some 1e38 } : Call).linearZoom = 1 :=
  have half : ({ zoom := some 2.5 } : Call).zoom = some 2.5 := rfl
  have full : ({ zoom := some 1e38 } : Call).zoom = some 1e38 := rfl
  have finite : (1e38 : Double).isFinite = true := by decide +kernel
  have below : (1e38 : Double) < factorLimit := by decide +kernel
  ⟨(linearZoom_clamps_below_limit half full (by decide +kernel) finite).2.2.2 (by decide +kernel)
      below,
    (linearZoom_clamps_below_limit full full finite finite).2.1 (by decide +kernel) below⟩

/-- A finite factor that is too large for 32 bits does not give the greatest zoom but the least,
and a smaller factor gives a larger zoom. -/
theorem huge_factor_gives_least_zoom :
    (1e39 : Double).isFinite = true ∧ (4.0 : Double) ≤ 1e39 ∧
      ({ zoom := some 1e39 } : Call).linearZoom = 0 ∧
      ({ zoom := some 4.0 } : Call).linearZoom = 1 := by
  decide +kernel

end Call

end PhotoCapture
