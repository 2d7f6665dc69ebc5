import PhotoCapture.Filter.Basic
import PhotoCapture.Proofs.Binary.Arithmetic
import PhotoCapture.Proofs.Color.Affine

namespace PhotoCapture

section Stages

variable {K : Type} [CommRing K] [OfScientific K]

namespace Rgba

def mapColors (change : K → K) (x : Rgba K) : Rgba K :=
  ⟨change x.red, change x.green, change x.blue, x.alpha⟩

/-- How bright a color looks, as a weighted sum of its channels. -/
def luma (x : Rgba K) : K :=
  ColorMatrix.lumaRed * x.red + ColorMatrix.lumaGreen * x.green + ColorMatrix.lumaBlue * x.blue

/-- Every color channel moved away from the luma by a factor. -/
def saturate (factor : K) (x : Rgba K) : Rgba K :=
  x.mapColors fun c => factor * c + (1 - factor) * x.luma

/-- Every color channel moved away from the middle of the scale by a factor. -/
def spread (factor : K) (x : Rgba K) : Rgba K :=
  x.mapColors fun c => factor * (c - 127.5) + 127.5

def brighten (factor : K) (x : Rgba K) : Rgba K := x.mapColors fun c => factor * c

def tone (x : Rgba K) : Rgba K where
  red := 0.393 * x.red + 0.769 * x.green + 0.189 * x.blue
  green := 0.349 * x.red + 0.686 * x.green + 0.168 * x.blue
  blue := 0.272 * x.red + 0.534 * x.green + 0.131 * x.blue
  alpha := x.alpha

end Rgba

/-- What a filter does to a color, stage after stage. -/
def Filter.develop (filter : Filter K) (x : Rgba K) : Rgba K :=
  let adjusted := ((x.saturate filter.saturation).spread filter.contrast).brighten filter.brightness
  if filter.sepia then adjusted.tone else adjusted

/-- The decimals of the stages that are sums of powers of two are read as such. -/
class ExactDecimals (K : Type) [CommRing K] [OfScientific K] : Prop where
  one : (1.0 : K) = 1
  middle : (0.5 : K) * 255.0 = 127.5

namespace ColorMatrix

variable (factor : K) (x : Rgba K)

omit [OfScientific K] in
@[simp] theorem apply_scaleTranslate (offset : K) :
    (scaleTranslate factor offset).apply x = x.mapColors fun c => factor * c + offset := by
  simp [scaleTranslate, apply, Row.apply, Row.keepAlpha, Rgba.mapColors]

omit [OfScientific K] in
@[simp] theorem apply_brightness : (brightness factor).apply x = x.brighten factor := by
  simp only [brightness, apply_scaleTranslate, Rgba.brighten, add_zero]

@[simp] theorem apply_sepia : sepia.apply x = x.tone := by
  simp [sepia, ofRgbRows, apply, Row.apply, Row.keepAlpha, Rgba.tone]

variable [ExactDecimals K]

@[simp] theorem apply_saturation : (saturation factor).apply x = x.saturate factor := by
  simp only [saturation, ExactDecimals.one, apply, Row.apply, Row.keepAlpha, Rgba.saturate,
    Rgba.mapColors, Rgba.luma, Rgba.mk.injEq]
  refine ⟨?_, ?_, ?_, ?_⟩ <;> ring

/-- Contrast leaves the middle of the scale where it is. -/
@[simp] theorem apply_contrast : (contrast factor).apply x = x.spread factor := by
  have offset : (-0.5 * factor + 0.5) * 255.0 = -factor * 127.5 + (127.5 : K) := by
    rw [← ExactDecimals.middle]
    ring
  rw [contrast, apply_scaleTranslate, Rgba.spread, offset]
  congr 1
  funext c
  ring

end ColorMatrix

/-- The matrix of a filter makes of a color what the stages make of it one after another. -/
theorem Filter.apply_matrix [ExactDecimals K] (filter : Filter K) (x : Rgba K) :
    filter.matrix.apply x = filter.develop x := by
  unfold matrix develop
  split <;> simp [ColorMatrix.followedBy]

end Stages

section Exact

variable {f : Binary.Format}

def Binary.value (x : Binary f) : ℚ := x.units * 2 ^ f.unitExponent

/-- Exact arithmetic with the constants of a format: decimals are rounded to the format as they
are read, and nothing is rounded afterwards. -/
def Exact (_ : Binary.Format) : Type := ℚ

instance : CommRing (Exact f) := inferInstanceAs (CommRing ℚ)

instance : OfScientific (Exact f) where
  ofScientific digits negativeExponent exponent :=
    (OfScientific.ofScientific digits negativeExponent exponent : Binary f).value

instance : ExactDecimals (Exact .single) where
  one := show (1.0 : Single).value = 1 by decide +kernel
  middle := show (0.5 : Single).value * (255.0 : Single).value = (127.5 : Single).value by
    decide +kernel

/-- With 32-bit constants and exact arithmetic, the matrix of a filter does what the four stages
do in their order. -/
theorem Filter.matrix_is_staged (filter : Filter (Exact .single)) (x : Rgba (Exact .single)) :
    filter.matrix.apply x = filter.develop x :=
  filter.apply_matrix x

end Exact

end PhotoCapture
