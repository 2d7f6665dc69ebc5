import PhotoCapture.Proofs.Binary.Arithmetic

namespace PhotoCapture.Binary

section Format

variable {f : Format} {x y : Binary f} {v : ℚ}

theorem place_zero : (0 : Binary f).place = some 0 := by
  change some (((min 0 f.infinity : Nat) : Int)) = some 0
  rw [Nat.zero_min, Nat.cast_zero]

theorem units_zero : (0 : Binary f).units = 0 := by
  change signed false (f.units (min 0 f.infinity)) = 0
  simp [signed, Format.units_zero]

theorem abs_units_le (hx : x.isFinite = true) : |x.units| ≤ f.units (f.infinity - 1) := by
  obtain ⟨negative, rank, rfl, h⟩ := exists_rank hx
  rw [units, abs_signed, Nat.abs_cast, Nat.cast_le]
  rcases (Nat.le_sub_one_of_lt h).lt_or_eq with less | same
  · exact (f.units_lt_units less (Nat.sub_le _ _)).le
  · rw [same]

theorem abs_placeNear (f : Format) (v : ℚ) : |f.placeNear v| = f.rankNear v := by
  unfold Format.placeNear
  split <;> simp

theorem isFinite_iff_place : x.isFinite = true ↔ ∃ a, x.place = some a ∧ |a| < f.infinity := by
  cases x with
  | nan => simp [isFinite, place]
  | number negative rank =>
    have size : |(if negative then -(rank.val : Int) else rank.val)| = rank.val := by
      cases negative <;> simp
    simp [isFinite, place_number, size]

theorem isFinite_congr (h : x.place = y.place) : x.isFinite = y.isFinite := by
  rw [Bool.eq_iff_iff, isFinite_iff_place, isFinite_iff_place, h]

theorem isFinite_of_between {z : Binary f} (hx : x.isFinite = true) (hz : z.isFinite = true)
    (low : x ≤ y) (high : y ≤ z) : y.isFinite = true := by
  obtain ⟨a, ha, least⟩ := isFinite_iff_place.mp hx
  obtain ⟨c, hc, most⟩ := isFinite_iff_place.mp hz
  obtain ⟨b, hb, le⟩ := (le_iff_of_place_left ha).mp low
  have le' := (le_iff_of_places hb hc).mp high
  rw [abs_lt] at least most
  exact isFinite_iff_place.mpr ⟨b, hb, abs_lt.mpr ⟨by omega, by omega⟩⟩

theorem place_infinite (negative : Bool) : (infinite negative : Binary f).place =
    some (if negative then -(f.infinity : Int) else f.infinity) := by
  rw [infinite, place_ofRank, Nat.min_self]

theorem not_infinite_le (hx : x.isFinite = true) : ¬ infinite false ≤ x := fun h => by
  obtain ⟨a, ha, bound⟩ := isFinite_iff_place.mp hx
  have le := (le_iff_of_places (place_infinite false) ha).mp h
  exact absurd (abs_lt.mp bound).2 (Int.not_lt.mpr le)

theorem not_le_infinite (hx : x.isFinite = true) : ¬ x ≤ infinite true := fun h => by
  obtain ⟨a, ha, bound⟩ := isFinite_iff_place.mp hx
  have le := (le_iff_of_places ha (place_infinite true)).mp h
  exact absurd (abs_lt.mp bound).1 (Int.not_lt.mpr le)

theorem isFinite_of_near (near : x.place = some (f.placeNear v)) (h : f.rankNear v < f.infinity) :
    x.isFinite = true := by
  refine isFinite_iff_place.mpr ⟨_, near, ?_⟩
  rw [abs_placeNear]
  exact_mod_cast h

end Format

section Single

variable {x y : Single} {v : ℚ}

theorem isFinite_zero : (0 : Single).isFinite = true := by decide

theorem near_zero : (0 : Single).place = some (Format.single.placeNear 0) := by
  rw [place_zero, placeNear_zero]

theorem units_nonneg (hx : x.isFinite = true) (h : 0 ≤ x) : 0 ≤ x.units := by
  rwa [← units_zero, ← le_iff_units isFinite_zero hx]

/-- Rounding does not change the sign. -/
theorem units_nonneg_of_near (hx : x.isFinite = true)
    (near : x.place = some (Format.single.placeNear v)) (h : 0 ≤ v) : 0 ≤ x.units :=
  units_nonneg hx (le_of_near near_zero near h)

theorem units_nonpos_of_near (hx : x.isFinite = true)
    (near : x.place = some (Format.single.placeNear v)) (h : v ≤ 0) : x.units ≤ 0 := by
  rw [← units_zero, ← le_iff_units hx isFinite_zero]
  exact le_of_near near near_zero h

theorem units_one : (1 : Single).units = 2 ^ (-Format.single.unitExponent) := by
  have value : (1 : Single).units = (Format.single.units Format.single.one : Nat) := rfl
  have power : Format.single.units Format.single.one = 2 ^ 149 := by decide +kernel
  have exponent : Format.single.unitExponent = -149 := by decide
  rw [value, power, exponent]
  norm_num

/-- The greatest magnitude is so far from infinity that one more unit is rounded back to it. -/
theorem rankNear_lt_infinity
    (h : |v| ≤ Format.single.units (Format.single.infinity - 1) + (1 : Single).units) :
    Format.single.rankNear v < Format.single.infinity := by
  have one : (1 : Single).units = (Format.single.units Format.single.one : Nat) := rfl
  rw [one] at h
  norm_cast at h
  generalize most_eq : Format.single.units (Format.single.infinity - 1) +
    Format.single.units Format.single.one = most at h
  have rounded : Format.single.nearest most 1 0 = Format.single.rankNear most :=
    Format.nearest_eq_rankNear _ one_pos (by simp)
  -- Rounding is monotone, so the one number at the bound decides for all below it.
  refine (Format.rankNear_mono _ (h.trans_eq (Nat.abs_cast most).symm)).trans_lt ?_
  rw [← rounded, ← most_eq]
  decide +kernel

theorem isFinite_add (hx : x.isFinite = true) (hy : y.isFinite = true)
    (h : |x.units + y.units| ≤
      Format.single.units (Format.single.infinity - 1) + (1 : Single).units) :
    (x + y).isFinite = true :=
  isFinite_of_near (place_add hx hy) (rankNear_lt_infinity h)

theorem isFinite_add_small (hx : x.isFinite = true) (hy : y.isFinite = true)
    (small : |y.units| ≤ (1 : Single).units) : (x + y).isFinite = true :=
  isFinite_add hx hy ((abs_add_le _ _).trans (add_le_add (abs_units_le hx) small))

theorem isFinite_sub_small (hx : x.isFinite = true) (hy : y.isFinite = true)
    (small : |x.units| ≤ (1 : Single).units) : (x - y).isFinite = true := by
  refine isFinite_of_near (place_sub hx hy) (rankNear_lt_infinity ?_)
  have most := abs_units_le hy
  have parts := abs_sub x.units y.units
  linarith

theorem one_units_nonneg : 0 ≤ (1 : Single).units := by
  rw [units_one]
  positivity

theorem isFinite_add_unlike (hx : x.isFinite = true) (hy : y.isFinite = true)
    (negative : x.units ≤ 0) (positive : 0 ≤ y.units) : (x + y).isFinite = true := by
  refine isFinite_add hx hy ?_
  have first := abs_le.mp (abs_units_le hx)
  have second := abs_le.mp (abs_units_le hy)
  have one := one_units_nonneg
  exact abs_le.mpr ⟨by linarith, by linarith⟩

theorem isFinite_mul_small (hx : x.isFinite = true) (hy : y.isFinite = true)
    (small : |x.units| ≤ (1 : Single).units) : (x * y).isFinite = true := by
  refine isFinite_of_near (place_mul hx hy) (rankNear_lt_infinity ?_)
  have most := abs_units_le hy
  have one := one_units_nonneg
  rw [units_one, zpow_neg] at small
  have unit : (0 : ℚ) < 2 ^ Format.single.unitExponent := by positivity
  have scaled : |x.units| * 2 ^ Format.single.unitExponent ≤ 1 := by
    rwa [← le_div_iff₀ unit, one_div]
  rw [mul_right_comm, abs_mul, abs_mul, abs_of_pos unit]
  have product := mul_le_mul_of_nonneg_right scaled (abs_nonneg y.units)
  linarith

end Single

end PhotoCapture.Binary
