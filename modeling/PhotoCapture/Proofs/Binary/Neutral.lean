import PhotoCapture.Proofs.Binary.Closure

namespace PhotoCapture.Binary

variable {w x y z : Single}

@[simp] theorem nan_add (x : Single) : nan + x = nan := rfl

@[simp] theorem add_nan (x : Single) : x + nan = nan := by rw [Binary.add_comm, nan_add]

@[simp] theorem nan_mul (x : Single) : nan * x = nan := rfl

@[simp] theorem mul_nan (x : Single) : x * nan = nan := by rw [Binary.mul_comm, nan_mul]

theorem isFinite_of_place_zero (hz : z.place = some 0) : z.isFinite = true :=
  isFinite_iff_place.mpr ⟨0, hz, by decide⟩

theorem units_of_place_zero (hz : z.place = some 0) : z.units = 0 := by
  rw [units_eq_of_place_eq (hz.trans place_zero.symm), units_zero]

theorem exists_rank_zero (hz : z.place = some 0) :
    ∃ negative rank, z = number negative rank ∧ rank.val = 0 := by
  cases z with
  | nan => simp [place] at hz
  | number negative rank =>
    rw [place_number, Option.some.injEq] at hz
    exact ⟨negative, rank, rfl, by cases negative <;> simpa using hz⟩

theorem eq_nan_or_infinite (hx : x.isFinite = false) :
    x = nan ∨ ∃ negative, x = infinite negative := by
  cases x with
  | nan => exact Or.inl rfl
  | number negative rank =>
    have bound := rank.isLt
    simp only [isFinite, decide_eq_false_iff_not] at hx
    exact Or.inr ⟨negative, congrArg _ (Fin.ext (by simp only [Nat.min_self]; omega))⟩

theorem finite_or_infinite (h : x ≠ nan) :
    x.isFinite = true ∨ x = infinite true ∨ x = infinite false := by
  rcases Bool.eq_false_or_eq_true x.isFinite with finite | notFinite
  · exact Or.inl finite
  · rcases eq_nan_or_infinite notFinite with rfl | ⟨negative, rfl⟩
    · exact absurd rfl h
    · cases negative
      · exact Or.inr (Or.inr rfl)
      · exact Or.inr (Or.inl rfl)

theorem place_add_zero (hz : z.place = some 0) : (x + z).place = x.place := by
  rcases Bool.eq_false_or_eq_true x.isFinite with hx | hx
  · rw [place_add hx (isFinite_of_place_zero hz), units_of_place_zero hz, add_zero, place_finite hx]
  · obtain ⟨n, r, rfl, zero⟩ := exists_rank_zero hz
    rcases eq_nan_or_infinite hx with rfl | ⟨negative, rfl⟩
    · rfl
    · -- An infinity is left as it is by every finite number.
      have small : r.val ≠ Format.single.infinity := by rw [zero]; decide
      change (add (ofRank negative Format.single.infinity) (number n r)).place = _
      rw [ofRank, add, if_pos (Nat.min_self _), if_neg fun h => small h.1]
      rfl

theorem place_zero_add (hz : z.place = some 0) : (z + x).place = x.place := by
  rw [Binary.add_comm, place_add_zero hz]

theorem place_zero_mul (hz : z.place = some 0) (hx : x.isFinite = true) :
    (z * x).place = some 0 := by
  rw [place_mul (isFinite_of_place_zero hz) hx, units_of_place_zero hz, zero_mul, zero_mul,
    placeNear_zero]

theorem zero_mul_of_not_finite (hz : z.place = some 0) (hx : x.isFinite = false) :
    z * x = nan := by
  obtain ⟨n, r, rfl, zero⟩ := exists_rank_zero hz
  rcases eq_nan_or_infinite hx with rfl | ⟨negative, rfl⟩
  · rfl
  · change mul (number n r) (ofRank negative Format.single.infinity) = _
    rw [ofRank, mul, if_pos (Or.inr (Nat.min_self _)), if_pos (Or.inl zero)]

theorem place_one_mul (x : Single) : (1 * x).place = x.place := by
  rcases Bool.eq_false_or_eq_true x.isFinite with hx | hx
  · rw [place_mul (by decide) hx, units_one, mul_right_comm, ← zpow_add₀ two_ne_zero,
      neg_add_cancel, zpow_zero, one_mul, place_finite hx]
  · rcases eq_nan_or_infinite hx with rfl | ⟨negative, rfl⟩
    · rfl
    · cases negative <;> decide

theorem place_mul_one (x : Single) : (x * 1).place = x.place := by
  rw [Binary.mul_comm, place_one_mul]

section Congr

theorem place_add_congr_left (h : x.place = y.place) (z : Single) :
    (x + z).place = (y + z).place := by
  by_cases zero : x.place = some 0
  · rw [place_zero_add zero, place_zero_add (h.symm.trans zero)]
  · rw [eq_of_place_eq h zero]

theorem place_add_congr (first : w.place = x.place) (second : y.place = z.place) :
    (w + y).place = (x + z).place := by
  rw [place_add_congr_left first, Binary.add_comm, place_add_congr_left second, Binary.add_comm]

theorem place_mul_congr_left (h : x.place = y.place) (z : Single) :
    (x * z).place = (y * z).place := by
  by_cases zero : x.place = some 0
  · have other := h.symm.trans zero
    rcases Bool.eq_false_or_eq_true z.isFinite with finite | notFinite
    · rw [place_zero_mul zero finite, place_zero_mul other finite]
    · rw [zero_mul_of_not_finite zero notFinite, zero_mul_of_not_finite other notFinite]
  · rw [eq_of_place_eq h zero]

theorem place_mul_congr (first : w.place = x.place) (second : y.place = z.place) :
    (w * y).place = (x * z).place := by
  rw [place_mul_congr_left first, Binary.mul_comm, place_mul_congr_left second, Binary.mul_comm]

end Congr

end PhotoCapture.Binary
