import PhotoCapture.Camera.Virtual
import PhotoCapture.Proofs.Binary.Scaling
import Mathlib.Data.List.Forall2

namespace PhotoCapture

namespace Binary

variable {f : Format} {m n : Nat}

theorem place_ofNat (n : Nat) : (ofNat n : Binary f).place =
    some (f.placeNear (n * 2 ^ (-f.unitExponent))) := by
  rw [ofNat, place_ofQuotient false one_pos, Nat.cast_one, div_one]
  rfl

theorem ofNat_le_ofNat (h : m ≤ n) : (ofNat m : Binary f) ≤ ofNat n := by
  refine le_of_near (place_ofNat m) (place_ofNat n) ?_
  exact mul_le_mul_of_nonneg_right (by exact_mod_cast h) (by positivity)

theorem within_ofNat (word : n < 2 ^ 32) : Within 32 (ofNat n) := by
  have unit : -Format.single.unitExponent = (149 : Nat) := by decide
  refine within_of_near (by decide) (place_ofNat n) ?_
  rw [unit, zpow_natCast, abs_of_nonneg (by positivity), pow_add, mul_comm]
  exact mul_le_mul_of_nonneg_left (by exact_mod_cast word.le) (by positivity)

theorem one_le_ofNat (h : 0 < n) : (1 : Single) ≤ ofNat n := by
  have one : (ofNat 1 : Single) = 1 := by decide
  rw [← one]
  exact ofNat_le_ofNat h

end Binary

namespace Camera.Scene

open Binary

section Coordinates

variable {magnification full middle place : Single} {size pixel : Nat}

theorem enlarged_between (finite : magnification.isFinite = true) (large : 1 ≤ magnification)
    (hm : middle.isFinite = true) (hp : place.isFinite = true) (hf : full.isFinite = true)
    (twice : 2 * middle.units = full.units) (low : 0 ≤ place.units)
    (high : place.units ≤ full.units) :
    (middle + (place - middle) / magnification).isFinite = true ∧
      0 ≤ (middle + (place - middle) / magnification).units ∧
      (middle + (place - middle) / magnification).units ≤ full.units := by
  -- The bounds are numbers of the format, so rounding does not lead beyond them.
  have offset : (place - middle).isFinite = true ∧ |(place - middle).units| ≤ middle.units :=
    finite_and_le_of_near (place_sub hp hm) hm (abs_le.mpr ⟨by linarith, by linarith⟩)
  obtain ⟨shrunk, bound⟩ := finite_and_abs_div_le offset.1 finite large
  obtain ⟨lower, upper⟩ := abs_le.mp (bound.trans offset.2)
  have near := place_add hm shrunk
  have nonneg : 0 ≤ middle.units + ((place - middle) / magnification).units := by linarith
  obtain ⟨inside, most⟩ := finite_and_le_of_near near hf
    (abs_le.mpr ⟨by linarith, by linarith⟩)
  exact ⟨inside, units_nonneg_of_near inside near nonneg, (le_abs_self _).trans most⟩

/-- Every place that a pixel shows lies between zero and one. -/
theorem coordinate_between (finite : magnification.isFinite = true) (large : 1 ≤ magnification)
    (word : size < 2 ^ 32) (inside : pixel < size) :
    0 ≤ coordinate magnification size pixel ∧ coordinate magnification size pixel ≤ 1 := by
  have full := (within_ofNat word).finite
  have place := (within_ofNat (inside.trans word)).finite
  have least := one_le_ofNat (Nat.zero_lt_of_lt inside)
  obtain ⟨middle, twice⟩ := halved full least
  have low : 0 ≤ (ofNat pixel : Single).units :=
    units_nonneg_of_near place (place_ofNat pixel) (by positivity)
  have high := (le_iff_units place full).mp (ofNat_le_ofNat inside.le)
  obtain ⟨shown, nonneg, most⟩ := enlarged_between finite large middle place full twice low high
  exact div_between shown full nonneg most (units_pos_of_one_le full least)

end Coordinates

section Light

variable {light stronger : Single}

/-- A stronger light makes no channel darker, whatever the channel is. -/
theorem shade_le_shade (finite : light.isFinite = true) (finite' : stronger.isFinite = true)
    (positive : 0 < light.units) (h : light ≤ stronger) (channel : Single) :
    shade light channel ≤ shade stronger channel := by
  have scale : (255.0 : Single).isFinite = true ∧ 0 < (255.0 : Single).units :=
    ⟨by decide, by decide⟩
  rw [shade, shade]
  by_cases nonneg : 0 ≤ channel
  · have lit := Binary.mul_le_mul_left nonneg finite finite' positive h
    exact toByte_le_toByte (Binary.mul_le_mul_right scale.1 scale.2 lit)
  · -- What is not positive is black in every light.
    have dark : (channel * light * 255.0).toByte = 0 := by
      cases number : channel.isNan with
      | true =>
        cases channel with
        | nan => rfl
        | number negative rank => contradiction
      | false =>
        have nonpos : channel ≤ 0 := (Binary.le_total rfl number).resolve_left nonneg
        exact toByte_of_nonpos (Binary.mul_nonpos scale.1 scale.2
          (Binary.mul_nonpos finite positive nonpos))
    rw [dark]
    exact UInt8.le_iff_toNat_le.mpr (Nat.zero_le _)

theorem picture_le_picture (finite : light.isFinite = true) (finite' : stronger.isFinite = true)
    (positive : 0 < light.units) (h : light ≤ stronger) (facing : Facing)
    (magnification : Single) (width height : Nat) :
    List.Forall₂ (List.Forall₂ (· ≤ ·)) (picture facing light magnification width height)
      (picture facing stronger magnification width height) := by
  have shades (channel : Single) : shade light channel ≤ shade stronger channel :=
    shade_le_shade finite finite' positive h channel
  have pixels (u v : Single) :
      List.Forall₂ (· ≤ ·) (pixel facing light u v) (pixel facing stronger u v) :=
    .cons (shades _) (.cons (shades _) (.cons (shades _) .nil))
  rw [picture, picture, List.forall₂_map_left_iff, List.forall₂_map_right_iff, List.forall₂_same]
  intro y _
  have columns : List.Forall₂ (· = ·) ((List.range width).map (coordinate magnification width))
      ((List.range width).map (coordinate magnification width)) := List.forall₂_refl _
  refine List.rel_flatMap columns fun u u' same => ?_
  rw [same]
  exact pixels u' _

theorem length_picture (facing : Facing) (light magnification : Single) (width height : Nat) :
    (picture facing light magnification width height).length = height := by
  rw [picture, List.length_map, List.length_range]

theorem length_row {facing : Facing} {magnification : Single} {width height : Nat}
    {row : List UInt8} (h : row ∈ picture facing light magnification width height) :
    row.length = 3 * width := by
  obtain ⟨y, -, rfl⟩ := List.mem_map.mp h
  have three (u v : Single) : (pixel facing light u v).length = 3 := rfl
  simp [List.length_flatMap, Function.comp_def, three, Nat.mul_comm 3]

end Light

end Camera.Scene

namespace Camera.Virtual

open Binary Scene

variable {zoom : Single}

theorem magnification_large (low : 0 ≤ zoom) (high : zoom ≤ 1) :
    (magnification zoom).isFinite = true ∧ 1 ≤ magnification zoom := by
  have one : (1 : Single).isFinite = true := by decide
  have finite := isFinite_of_between isFinite_zero one low high
  have nonneg := units_nonneg finite low
  have within : Within 0 zoom := by
    refine ⟨finite, ?_⟩
    have unit : (1 : Single).units = 2 ^ (149 + 0) := by decide
    rw [abs_of_nonneg nonneg, ← unit]
    exact (le_iff_units finite one).mp high
  have three : Within 2 (3.0 : Single) := ⟨by decide, by decide⟩
  have product : Within 2 (3.0 * zoom) := three.mul within (by decide)
  have rise : 0 ≤ (3.0 * zoom).units :=
    units_nonneg_of_near product.finite (place_mul three.finite finite)
      (mul_nonneg (mul_nonneg (by decide) nonneg) (by positivity))
  have sum : Within 3 (magnification zoom) :=
    Within.add (k := 2) ⟨one, by decide⟩ product (by decide)
  refine ⟨sum.finite, le_of_near (place_finite one) (place_add one product.finite) ?_⟩
  exact le_add_of_nonneg_right rise

def withTorch (camera : Virtual) (on : Bool) : Virtual :=
  { camera with state := { camera.state with torch := on } }

theorem size_lt (camera : Virtual) : camera.size.1 < 2 ^ 32 ∧ camera.size.2 < 2 ^ 32 := by
  have width := camera.sensor.width.toNat_lt
  have height := camera.sensor.height.toNat_lt
  simp only [size]
  omega

/-- At every zoom, all pixels of a camera that is bound show places of the scene, and with the
torch on no channel of a pixel is darker than with the torch off. -/
theorem torch_never_darkens (camera : Virtual) {facing : Facing}
    (bound : camera.state.facing = some facing) (low : 0 ≤ camera.state.linearZoom)
    (high : camera.state.linearZoom ≤ 1) :
    let enlargement := magnification camera.state.linearZoom
    let width := camera.size.1
    let height := camera.size.2
    (∀ x < width, 0 ≤ coordinate enlargement width x ∧ coordinate enlargement width x ≤ 1) ∧
    (∀ y < height, 0 ≤ coordinate enlargement height y ∧ coordinate enlargement height y ≤ 1) ∧
    ∃ dark lit, (camera.withTorch false).render = .ok dark ∧
      (camera.withTorch true).render = .ok lit ∧ dark.length = height ∧
      (∀ row ∈ dark, row.length = 3 * width) ∧ List.Forall₂ (List.Forall₂ (· ≤ ·)) dark lit := by
  obtain ⟨finite, large⟩ := magnification_large low high
  obtain ⟨width, height⟩ := camera.size_lt
  have rendered (on : Bool) : (camera.withTorch on).render =
      .ok (picture facing (if on then 1.35 else 1) (magnification camera.state.linearZoom)
        camera.size.1 camera.size.2) := by
    simp only [render, withTorch, bound]
    rfl
  refine ⟨fun x hx => coordinate_between finite large width hx,
    fun y hy => coordinate_between finite large height hy, _, _, rendered false, rendered true,
    length_picture _ _ _ _ _, fun row => length_row, ?_⟩
  exact picture_le_picture (by decide) (by decide) (by decide) (by decide)
    facing _ _ _

/-- A small picture before the camera, at half of the zoom. -/
theorem torch_on_small_picture :
    let camera : Virtual := { sensor := ⟨3, 2, 92⟩, state := ⟨some .front, false, 0.5⟩ }
    camera.state.facing = some .front ∧ 0 ≤ camera.state.linearZoom ∧
      camera.state.linearZoom ≤ 1 ∧ 2 < camera.size.1 ∧
      coordinate (magnification camera.state.linearZoom) camera.size.1 2 ≤ 1 ∧
      ∃ dark lit, (camera.withTorch false).render = .ok dark ∧
        (camera.withTorch true).render = .ok lit ∧ dark.length = 2 ∧
        List.Forall₂ (List.Forall₂ (· ≤ ·)) dark lit := by
  intro camera
  have low : 0 ≤ camera.state.linearZoom := by decide
  have high : camera.state.linearZoom ≤ 1 := by decide
  have wide : 2 < camera.size.1 := by decide
  obtain ⟨columns, -, dark, lit, off, on, rows, -, darker⟩ :=
    torch_never_darkens camera rfl low high
  exact ⟨rfl, low, high, wide, (columns 2 wide).2, dark, lit, off, on, rows, darker⟩

end Camera.Virtual

end PhotoCapture
