import PhotoCapture.Proofs.Binary.Bounds
import PhotoCapture.Proofs.Color.Single

namespace PhotoCapture.Binary

/-- One binade up, a normal magnitude is twice as large. -/
theorem Format.units_add_leading (f : Format) {rank : Nat} (h : f.leading ≤ rank) :
    f.units (rank + f.leading) = 2 * f.units rank := by
  have binade := Nat.div_pos h f.leading_pos
  have significand : f.significand (rank + f.leading) = f.significand rank := by
    rw [Format.significand, Format.significand, Nat.add_mod_right, if_neg (by omega),
      if_neg (by omega)]
  have scale : f.scale (rank + f.leading) = f.scale rank + 1 := by
    rw [Format.scale_eq, Format.scale_eq, Nat.add_div_right _ f.leading_pos]
    omega
  rw [Format.units_eq, Format.units_eq, significand, scale, pow_succ]
  ring

variable {x y z : Single}

theorem exists_rank_of_pos {a : Int} (place : x.place = some a) (positive : 0 < a) :
    ∃ rank, x = number false rank ∧ (rank.val : Int) = a := by
  cases x with
  | nan => simp [Binary.place] at place
  | number negative rank =>
    rw [place_number, Option.some.injEq] at place
    cases negative with
    | false => exact ⟨rank, rfl, by simpa using place⟩
    | true =>
      simp only [if_true] at place
      omega

section Halving

/-- Numbers from one upwards are halved exactly. -/
theorem halved (finite : x.isFinite = true) (large : 1 ≤ x) :
    (x / 2.0).isFinite = true ∧ 2 * (x / 2.0).units = x.units := by
  have one : (1 : Single).place = some (127 * Format.single.leading : Int) := by decide
  have positive : 0 < Format.single.leading := Format.single.leading_pos
  obtain ⟨a, place, least⟩ := (le_iff_of_place_left one).mp large
  obtain ⟨rank, rfl, rfl⟩ := exists_rank_of_pos place (by omega)
  -- The magnitude is normal with a binade below it, so its half has a rank, one binade down.
  obtain ⟨lower, sum⟩ : ∃ lower, rank.val = lower + Format.single.leading :=
    ⟨rank.val - Format.single.leading, by omega⟩
  let half : Single := number false ⟨lower, by omega⟩
  have twice : 2 * half.units = (number false rank : Single).units := by
    simp only [half, units, signed, Bool.false_eq_true, if_false, sum]
    exact_mod_cast (Format.units_add_leading _ (by omega)).symm
  have two : (2.0 : Single).units = 2 * 2 ^ (-Format.single.unitExponent) := by
    rw [← units_one]
    decide +kernel
  have nonzero : (2.0 : Single).units ≠ 0 := by
    rw [two]
    positivity
  have quotient : (number false rank : Single).units / (2.0 : Single).units *
      2 ^ (-Format.single.unitExponent) = half.units := by
    rw [two, ← twice, mul_div_mul_left _ _ two_ne_zero, div_mul_cancel₀ _ (by positivity)]
  have finite' : half.isFinite = true := decide_eq_true (by simp only; omega)
  have same : (number false rank / 2.0 : Single).place = half.place := by
    rw [place_div finite (by decide +kernel) nonzero, quotient, place_finite finite']
  exact ⟨(isFinite_congr same).trans finite', (units_eq_of_place_eq same).symm ▸ twice⟩

end Halving

section Quotients

theorem one_units_pos : 0 < (1 : Single).units := by
  rw [units_one]
  positivity

theorem units_pos_of_one_le (finite : z.isFinite = true) (large : 1 ≤ z) : 0 < z.units :=
  one_units_pos.trans_le ((le_iff_units (by decide) finite).mp large)

/-- A divisor from one upwards makes no magnitude larger. -/
theorem finite_and_abs_div_le (hx : x.isFinite = true) (hz : z.isFinite = true) (large : 1 ≤ z) :
    (x / z).isFinite = true ∧ |(x / z).units| ≤ |x.units| := by
  have divisor := (le_iff_units (by decide) hz).mp large
  have positive := units_pos_of_one_le hz large
  have near := place_div hx hz positive.ne'
  rw [← units_one, div_mul_eq_mul_div] at near
  have bound : |x.units * (1 : Single).units / z.units| ≤ x.abs.units := by
    rw [units_abs, abs_div, abs_mul, abs_of_pos one_units_pos, abs_of_pos positive,
      div_le_iff₀ positive]
    exact mul_le_mul_of_nonneg_left divisor (abs_nonneg _)
  rw [← units_abs x]
  exact finite_and_le_of_near near (by rw [isFinite_abs, hx]) bound

theorem div_between (hx : x.isFinite = true) (hz : z.isFinite = true) (nonneg : 0 ≤ x.units)
    (le : x.units ≤ z.units) (positive : 0 < z.units) : 0 ≤ x / z ∧ x / z ≤ 1 := by
  have near := place_div hx hz positive.ne'
  rw [← units_one] at near
  have one := one_units_nonneg
  refine ⟨le_of_near near_zero near (mul_nonneg (div_nonneg nonneg positive.le) one),
    le_of_near near (place_finite (by decide)) ?_⟩
  exact mul_le_of_le_one_left one ((div_le_one positive).mpr le)

end Quotients

section Products

theorem abs_place_le {a : Int} (place : x.place = some a) : |a| ≤ Format.single.infinity := by
  cases x with
  | nan => cases place
  | number negative rank =>
    have bound := Nat.le_of_lt_succ rank.isLt
    rw [place_number, Option.some.injEq] at place
    rw [← place]
    cases negative <;> simpa using bound

theorem le_infinite (number : x.isNan = false) : x ≤ infinite false := by
  obtain ⟨a, place⟩ := exists_place number
  exact (le_iff_of_places place (place_infinite false)).mpr (abs_le.mp (abs_place_le place)).2

theorem infinite_le (number : x.isNan = false) : infinite true ≤ x := by
  obtain ⟨a, place⟩ := exists_place number
  exact (le_iff_of_places (place_infinite true) place).mpr (abs_le.mp (abs_place_le place)).1

variable (finite : z.isFinite = true) (positive : 0 < z.units)

include finite positive

theorem infinite_mul (negative : Bool) : infinite negative * z = infinite negative := by
  obtain ⟨sign, rank, rfl, bound⟩ := exists_rank finite
  obtain rfl : sign = false := by
    cases sign with
    | false => rfl
    | true => simp [units, signed, not_lt.mpr] at positive
  have nonzero : rank.val ≠ 0 := fun zero => by
    simp [units, signed, zero, Format.units_zero] at positive
  change mul (ofRank negative Format.single.infinity) (number false rank) = _
  rw [ofRank, mul, if_pos (Or.inl (Nat.min_self _)), if_neg (not_or.mpr ⟨by decide, nonzero⟩)]
  cases negative <;> rfl

theorem isNan_mul (number : x.isNan = false) : (x * z).isNan = false := by
  have number' : x ≠ nan := by
    rintro rfl
    contradiction
  rcases finite_or_infinite number' with hx | rfl | rfl
  · exact isNan_of_place (place_mul hx finite)
  · rw [infinite_mul finite positive]
    rfl
  · rw [infinite_mul finite positive]
    rfl

/-- A positive factor keeps the order, also where the products overflow. -/
protected theorem mul_le_mul_right (h : x ≤ y) : x * z ≤ y * z := by
  obtain ⟨a, b, first, second, le⟩ := le_iff.mp h
  have number {v : Single} {c : Int} (place : v.place = some c) : v ≠ nan := by
    rintro rfl
    cases place
  -- Finite products are rounded in their order, and infinities stay where they are.
  rcases finite_or_infinite (number first) with hx | rfl | rfl
  · rcases finite_or_infinite (number second) with hy | rfl | rfl
    · refine le_of_near (place_mul hx finite) (place_mul hy finite) ?_
      have factors := mul_le_mul_of_nonneg_right ((le_iff_units hx hy).mp h) positive.le
      exact mul_le_mul_of_nonneg_right factors (by positivity)
    · exact absurd h (not_le_infinite hx)
    · rw [infinite_mul finite positive]
      exact le_infinite (isNan_of_place (place_mul hx finite))
  · rw [infinite_mul finite positive]
    exact infinite_le (isNan_mul finite positive (isNan_of_place second))
  · rcases finite_or_infinite (number second) with hy | rfl | rfl
    · exact absurd h (not_infinite_le hy)
    · exact absurd h (by decide)
    · rw [infinite_mul finite positive]
      exact le_infinite rfl

protected theorem mul_nonpos (h : x ≤ 0) : x * z ≤ 0 := by
  have le := Binary.mul_le_mul_right finite positive h
  rw [le_iff_of_place_right (place_zero_mul place_zero finite)] at le
  exact (le_iff_of_place_right place_zero).mpr le

omit finite positive in
/-- The larger of two positive factors gives the larger product, unless both overflow. -/
protected theorem mul_le_mul_left (nonneg : 0 ≤ x) (hy : y.isFinite = true) (hz : z.isFinite = true)
    (positive : 0 < y.units) (h : y ≤ z) : x * y ≤ x * z := by
  have order := (le_iff_units hy hz).mp h
  by_cases hx : x.isFinite = true
  · refine le_of_near (place_mul hx hy) (place_mul hx hz) ?_
    have factors := mul_le_mul_of_nonneg_left order (units_nonneg hx nonneg)
    exact mul_le_mul_of_nonneg_right factors (by positivity)
  · obtain rfl : x = infinite false := by
      rcases eq_nan_or_infinite (Bool.eq_false_iff.mpr hx) with rfl | ⟨negative, rfl⟩
      · exact absurd nonneg (by decide)
      · cases negative
        · rfl
        · exact absurd nonneg (by decide)
    rw [infinite_mul hy positive, infinite_mul hz (positive.trans_le order)]
    exact le_infinite rfl

end Products

section Byte

theorem toByte_number {rank : Fin (Format.single.infinity + 1)}
    (finite : rank.val < Format.single.infinity) : (number false rank : Single).toByte =
      UInt8.ofNat (min ((Format.single.units rank + 2 ^ 148) / 2 ^ 149) 255) := by
  have unit : Format.single.unitExponent = -149 := by decide
  rw [toByte, if_neg (Nat.not_le.mpr finite), unit, Format.units_eq]
  dsimp only
  generalize Format.single.significand rank = m
  generalize Format.single.scale rank = s
  congr 2
  simp only [Format.scaleUp_eq, Nat.shiftRight_eq_div_pow, Nat.one_mul]
  -- The binary point stands behind the significand or within it.
  split
  next large =>
    obtain ⟨k, rfl⟩ : ∃ k, s = 149 + k := ⟨s - 149, by omega⟩
    have places : ((149 + k : Nat) + (-149) : Int).toNat = k := by omega
    have whole : m * 2 ^ (149 + k) + 2 ^ 148 = 2 ^ 149 * (m * 2 ^ k) + 2 ^ 148 := by ring
    rw [places, whole, Nat.mul_add_div (by positivity)]
    norm_num
  next small =>
    obtain ⟨k, sum⟩ : ∃ k, s + (k + 1) = 149 := ⟨148 - s, by omega⟩
    have places : (-((s : Int) + -149)).toNat = k + 1 := by omega
    have half : (2 : Nat) ^ 148 = 2 ^ k * 2 ^ s := by
      rw [← pow_add]
      congr 1
      omega
    have unit : (2 : Nat) ^ 149 = 2 ^ (k + 1) * 2 ^ s := by
      rw [← pow_add]
      congr 1
      omega
    rw [places, Nat.add_sub_cancel, half, unit, ← Nat.add_mul,
      Nat.mul_div_mul_right _ _ (by positivity)]

theorem toByte_of_nonpos (h : x ≤ 0) : x.toByte = 0 := by
  obtain ⟨a, place, nonpos⟩ := (le_iff_of_place_right place_zero).mp h
  cases x with
  | nan => rfl
  | number negative rank =>
    cases negative with
    | true => rfl
    | false =>
      rw [place_number, Option.some.injEq, if_neg Bool.false_ne_true] at place
      have zero : (number false rank : Single).place = (0 : Single).place := by
        rw [place_number, place_zero, if_neg Bool.false_ne_true]
        exact congrArg some (by omega)
      rw [toByte_congr zero]
      rfl

theorem toByte_le_toByte (h : x ≤ y) : x.toByte ≤ y.toByte := by
  obtain ⟨a, b, first, second, le⟩ := le_iff.mp h
  by_cases nonpos : a ≤ 0
  · rw [toByte_of_nonpos ((le_iff_of_places first place_zero).mpr nonpos)]
    exact UInt8.le_iff_toNat_le.mpr (Nat.zero_le _)
  obtain ⟨r, rfl, rfl⟩ := exists_rank_of_pos first (by omega)
  obtain ⟨s, rfl, rfl⟩ := exists_rank_of_pos second (by omega)
  rcases Nat.lt_or_ge s.val Format.single.infinity with finite | infinite
  · have order : Format.single.units r ≤ Format.single.units s := by
      rcases (show r.val ≤ s.val by omega).lt_or_eq with less | same
      · exact (Format.units_lt_units _ less finite.le).le
      · rw [same]
    have whole := min_le_min_right 255
      (Nat.div_le_div_right (c := 2 ^ 149) (Nat.add_le_add_right order (2 ^ 148)))
    have small (n : Nat) : min n 255 < UInt8.size := Nat.lt_succ_of_le (Nat.min_le_right n 255)
    rwa [toByte_number finite, toByte_number (by omega), UInt8.le_iff_toNat_le,
      UInt8.toNat_ofNat_of_lt' (small _), UInt8.toNat_ofNat_of_lt' (small _)]
  · have most : (number false s : Single).toByte = 255 := by rw [toByte, if_pos infinite]
    rw [most]
    exact UInt8.le_iff_toNat_le.mpr (Nat.le_of_lt_succ (UInt8.toNat_lt _))

end Byte

end PhotoCapture.Binary
