import PhotoCapture.Proofs.Filter.Stages
import Mathlib.Tactic.LinearCombination
import Mathlib.Tactic.NormNum

namespace PhotoCapture

variable {K : Type} [CommRing K]

namespace ColorMatrix

/-- A row is known by the channel it makes of black and of each single color. -/
theorem Row.eq_of_apply_eq {r s : Row K} (h : ∀ x, r.apply x = s.apply x) : r = s := by
  have offset : r.offset = s.offset := by simpa [Row.apply] using h ⟨0, 0, 0, 0⟩
  have red : r.red = s.red := by simpa [Row.apply, offset] using h ⟨1, 0, 0, 0⟩
  have green : r.green = s.green := by simpa [Row.apply, offset] using h ⟨0, 1, 0, 0⟩
  have blue : r.blue = s.blue := by simpa [Row.apply, offset] using h ⟨0, 0, 1, 0⟩
  have alpha : r.alpha = s.alpha := by simpa [Row.apply, offset] using h ⟨0, 0, 0, 1⟩
  cases r
  cases s
  simp only [Row.mk.injEq]
  exact ⟨red, green, blue, alpha, offset⟩

theorem eq_of_apply_eq {m n : ColorMatrix K} (h : ∀ x, m.apply x = n.apply x) : m = n := by
  have rows (x : Rgba K) := Rgba.mk.inj (h x)
  have red : m.red = n.red := Row.eq_of_apply_eq fun x => (rows x).1
  have green : m.green = n.green := Row.eq_of_apply_eq fun x => (rows x).2.1
  have blue : m.blue = n.blue := Row.eq_of_apply_eq fun x => (rows x).2.2.1
  have alpha : m.alpha = n.alpha := Row.eq_of_apply_eq fun x => (rows x).2.2.2
  cases m
  cases n
  simp only [ColorMatrix.mk.injEq]
  exact ⟨red, green, blue, alpha⟩

end ColorMatrix

section Weights

open ColorMatrix

variable [OfScientific K] (whole : (lumaRed + lumaGreen + lumaBlue : K) = 1) (s t : K) (x : Rgba K)

include whole

namespace Rgba

/-- What saturation takes from one channel it gives to the others. -/
theorem luma_saturate : (x.saturate s).luma = x.luma := by
  simp only [luma, saturate, mapColors]
  linear_combination
    (1 - s) * (lumaRed * x.red + lumaGreen * x.green + lumaBlue * x.blue) * whole

theorem luma_grey (grey alpha : K) : (⟨grey, grey, grey, alpha⟩ : Rgba K).luma = grey := by
  simp only [luma]
  linear_combination grey * whole

theorem saturate_grey (grey alpha : K) :
    saturate s ⟨grey, grey, grey, alpha⟩ = ⟨grey, grey, grey, alpha⟩ := by
  have channel : s * grey + (1 - s) * grey = grey := by ring
  simp only [saturate, mapColors, luma_grey whole, channel]

theorem saturate_saturate : (x.saturate t).saturate s = x.saturate (s * t) := by
  have channel (c : K) : s * (t * c + (1 - t) * x.luma) + (1 - s) * x.luma =
      s * t * c + (1 - s * t) * x.luma := by ring
  rw [saturate, luma_saturate whole]
  simp only [saturate, mapColors, channel]

end Rgba

theorem ColorMatrix.concat_saturation [ExactDecimals K] :
    concat (saturation s) (saturation t) = saturation (s * t) := by
  refine eq_of_apply_eq fun x => ?_
  rw [apply_concat, apply_saturation, apply_saturation, apply_saturation,
    Rgba.saturate_saturate whole]

end Weights

section Rational

instance : ExactDecimals ℚ where
  one := by norm_num
  middle := by norm_num

namespace ColorMatrix

/-- The decimals come to one exactly, which their 32-bit roundings do not. -/
theorem luma_weights_whole : (lumaRed + lumaGreen + lumaBlue : ℚ) = 1 := by
  norm_num [lumaRed, lumaGreen, lumaBlue]

/-- With decimal weights and exact arithmetic, saturation keeps luma, alpha and every grey, and the
saturation matrices are closed under concatenation, where their factors are multiplied. -/
theorem saturations_keep_luma_and_multiply (s t : ℚ) (x : Rgba ℚ) (grey alpha : ℚ) :
    let y := (saturation s).apply x
    (0.213 * y.red + 0.715 * y.green + 0.072 * y.blue =
        0.213 * x.red + 0.715 * x.green + 0.072 * x.blue ∧ y.alpha = x.alpha) ∧
      (saturation s).apply ⟨grey, grey, grey, alpha⟩ = ⟨grey, grey, grey, alpha⟩ ∧
      concat (saturation s) (saturation t) = saturation (s * t) := by
  intro y
  have saturated : y = x.saturate s := apply_saturation s x
  refine ⟨⟨?_, ?_⟩, ?_, concat_saturation luma_weights_whole s t⟩
  · have luma : y.luma = x.luma := by rw [saturated, Rgba.luma_saturate luma_weights_whole]
    exact luma
  · rw [saturated]
    rfl
  · rw [apply_saturation, Rgba.saturate_grey luma_weights_whole]

end ColorMatrix

end Rational

end PhotoCapture
