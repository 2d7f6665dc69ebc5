import PhotoCapture.Proofs.Binary.Closure

namespace PhotoCapture.Binary

section Format

variable {f : Format} {x y : Binary f} {v : ℚ}

theorem rankNear_lt_of_finite (hy : y.isFinite = true) : f.rankNear y.units < f.infinity := by
  obtain ⟨a, ha, bound⟩ := isFinite_iff_place.mp hy
  rw [place_finite hy, Option.some.injEq] at ha
  rw [← ha, abs_placeNear] at bound
  exact_mod_cast bound

/-- What is rounded from within the magnitude of a finite number stays there. -/
theorem finite_and_le_of_near (near : x.place = some (f.placeNear v)) (hy : y.isFinite = true)
    (h : |v| ≤ y.units) : x.isFinite = true ∧ |x.units| ≤ y.units := by
  have size : |v| ≤ |y.units| := h.trans (le_abs_self _)
  have hx := isFinite_of_near near ((f.rankNear_mono size).trans_lt (rankNear_lt_of_finite hy))
  obtain ⟨low, high⟩ := abs_le.mp h
  have hy' : y.neg.isFinite = true := by rwa [isFinite_neg]
  refine ⟨hx, abs_le.mpr ⟨?_, ?_⟩⟩
  · rw [← units_neg, ← le_iff_units hy' hx]
    exact le_of_near (place_finite hy') near (by rwa [units_neg])
  · rw [← le_iff_units hx hy]
    exact le_of_near near (place_finite hy) high

end Format

variable {x y : Single} {v : ℚ} {j k : Nat}

theorem units_abs (x : Single) : x.abs.units = |x.units| := by
  cases x with
  | nan => simp [abs, units]
  | number negative rank =>
    rw [abs, units, units, abs_signed, Nat.abs_cast]
    rfl

theorem place_abs (x : Single) : x.abs.place = x.place.map fun a => |a| := by
  cases x with
  | nan => rfl
  | number negative rank => cases negative <;> simp [abs, place]

theorem isFinite_abs (x : Single) : x.abs.isFinite = x.isFinite := by
  cases x <;> rfl

def power (k : Nat) : Single := ofRank false ((127 + k) * Format.single.leading)

theorem isFinite_power (hk : k < 128) : (power k).isFinite = true := by
  revert k
  decide +kernel

theorem units_power (hk : k < 128) : (power k).units = 2 ^ (149 + k) := by
  revert k
  decide +kernel

/-- Finite, and at most `2 ^ k` in magnitude. -/
structure Within (k : Nat) (x : Single) : Prop where
  finite : x.isFinite = true
  bound : |x.units| ≤ 2 ^ (149 + k)

theorem within_of_near (hk : k < 128) (near : x.place = some (Format.single.placeNear v))
    (h : |v| ≤ 2 ^ (149 + k)) : Within k x := by
  obtain ⟨finite, bound⟩ := finite_and_le_of_near near (isFinite_power hk)
    (h.trans_eq (units_power hk).symm)
  exact ⟨finite, bound.trans_eq (units_power hk)⟩

namespace Within

theorem mono (h : Within j x) (le : j ≤ k) : Within k x :=
  ⟨h.finite, h.bound.trans (pow_le_pow_right₀ one_le_two (by omega))⟩

theorem add (hx : Within k x) (hy : Within k y) (hk : k < 127) : Within (k + 1) (x + y) := by
  refine within_of_near (by omega) (place_add hx.finite hy.finite) ?_
  refine (abs_add_le _ _).trans ?_
  rw [← add_assoc, pow_succ, mul_two]
  exact add_le_add hx.bound hy.bound

theorem neg (hx : Within k x) : Within k (-x) := by
  change Within k x.neg
  exact ⟨by rw [isFinite_neg, hx.finite], by rw [units_neg, abs_neg]; exact hx.bound⟩

theorem sub (hx : Within k x) (hy : Within k y) (hk : k < 127) : Within (k + 1) (x - y) :=
  hx.add hy.neg hk

theorem mul (hx : Within j x) (hy : Within k y) (h : j + k < 128) : Within (j + k) (x * y) := by
  refine within_of_near h (place_mul hx.finite hy.finite) ?_
  have exponent : Format.single.unitExponent = -149 := by decide
  have unit : (0 : ℚ) < 2 ^ (149 : ℕ) := by positivity
  rw [abs_mul, abs_mul, exponent, zpow_neg, abs_inv, zpow_ofNat, abs_of_pos unit,
    ← div_eq_mul_inv, div_le_iff₀ unit]
  calc |x.units| * |y.units| ≤ 2 ^ (149 + j) * 2 ^ (149 + k) :=
        mul_le_mul hx.bound hy.bound (abs_nonneg _) (by positivity)
    _ = 2 ^ (149 + (j + k)) * 2 ^ 149 := by ring

theorem of_abs_le (hy : Within k y) (h : x.abs ≤ y) : Within k x := by
  obtain ⟨a, b, ha, hb, le⟩ := le_iff.mp h
  obtain ⟨c, hc, rfl⟩ := Option.map_eq_some_iff.mp ((place_abs x).symm.trans ha)
  obtain ⟨b', hb', bound⟩ := isFinite_iff_place.mp hy.finite
  obtain rfl : b = b' := Option.some.inj (hb.symm.trans hb')
  have finite : x.isFinite = true :=
    isFinite_iff_place.mpr ⟨c, hc, (le.trans (le_abs_self b)).trans_lt bound⟩
  have size := (le_iff_units ((isFinite_abs x).trans finite) hy.finite).mp h
  rw [units_abs] at size
  exact ⟨finite, size.trans ((le_abs_self _).trans hy.bound)⟩

end Within

end PhotoCapture.Binary
