import PhotoCapture.Proofs.Binary.Order
import PhotoCapture.Proofs.Binary.Rounding

namespace PhotoCapture.Binary

variable {f g : Format} {x y z : Binary f} {v w : ℚ}

def signed (negative : Bool) (v : ℚ) : ℚ := if negative then -v else v

/-- A finite number as a whole multiple of the least positive one. -/
def units : Binary f → ℚ
  | nan => 0
  | number negative rank => signed negative (f.units rank)

theorem abs_signed (negative : Bool) (v : ℚ) : |signed negative v| = |v| := by
  cases negative <;> simp [signed]

theorem signed_xor (n₁ n₂ : Bool) (v w : ℚ) :
    signed (n₁ != n₂) (v * w) = signed n₁ v * signed n₂ w := by
  cases n₁ <;> cases n₂ <;> simp [signed]

theorem signed_div (n₁ n₂ : Bool) (v w : ℚ) :
    signed (n₁ != n₂) (v / w) = signed n₁ v / signed n₂ w := by
  cases n₁ <;> cases n₂ <;> simp [signed, neg_div, div_neg]

theorem signed_mul (negative : Bool) (v w : ℚ) :
    signed negative (v * w) = signed negative v * w := by
  cases negative <;> simp [signed]

theorem place_ofRank (negative : Bool) (rank : Nat) : (ofRank negative rank : Binary f).place =
    some (if negative then -((min rank f.infinity : Nat) : Int) else (min rank f.infinity : Nat)) :=
  rfl

theorem place_number (negative : Bool) (rank : Fin (f.infinity + 1)) :
    (number negative rank).place = some (if negative then -(rank.val : Int) else rank.val) := rfl

/-- A rational number of units with a sign is rounded by its magnitude. -/
theorem place_ofQuotient {n d : Nat} (negative : Bool) (hd : 0 < d) (e : Int) :
    (ofQuotient negative n d e : Binary f).place =
      some (f.placeNear (signed negative ((n : ℚ) / d * 2 ^ e))) := by
  have positive : (0 : ℚ) ≤ (n : ℚ) / d * 2 ^ e := by positivity
  generalize hv : (n : ℚ) / d * 2 ^ e = v at positive
  have rank : f.nearest n d e = f.rankNear (signed negative v) :=
    f.nearest_eq_rankNear hd (by rw [hv, abs_signed, abs_of_nonneg positive])
  have bound := f.rankNear_le_infinity (signed negative v)
  rw [ofQuotient, place_ofRank, rank, min_eq_left bound, Format.placeNear]
  cases negative with
  | false => simp [signed, not_lt.mpr positive]
  | true =>
    rcases positive.lt_or_eq with positive | rfl
    · simp [signed, positive]
    · simp [signed, Format.rankNear, Format.nearest]

/-- A finite number is not changed by rounding. -/
theorem place_finite (h : x.isFinite = true) : x.place = some (f.placeNear x.units) := by
  cases x with
  | nan => simp [isFinite] at h
  | number negative rank =>
    have rounded := place_ofQuotient (f := f) (n := f.units rank) negative one_pos 0
    rw [ofQuotient, Format.nearest_units, place_ofRank, min_assoc, min_self,
      min_eq_left (Nat.le_of_lt_succ rank.isLt)] at rounded
    simpa [units, place_number] using rounded

theorem scaleUp_base (f : Format) {rank base : Nat} (h : base ≤ f.scale rank) :
    (Format.scaleUp (f.significand rank) (f.scale rank - base) : ℚ) * 2 ^ base = f.units rank := by
  rw [Format.scaleUp_eq, Format.units_eq]
  push_cast
  rw [mul_assoc, ← pow_add, Nat.sub_add_cancel h]

theorem placeNear_zero (f : Format) : f.placeNear 0 = 0 := by
  simp [Format.placeNear, Format.rankNear, Format.nearest]

theorem place_addFinite (n₁ n₂ : Bool) (r₁ r₂ : Nat) : (addFinite n₁ r₁ n₂ r₂ : Binary f).place =
    some (f.placeNear (signed n₁ (f.units r₁) + signed n₂ (f.units r₂))) := by
  have first := scaleUp_base f (Nat.min_le_left (f.scale r₁) (f.scale r₂))
  have second := scaleUp_base f (Nat.min_le_right (f.scale r₁) (f.scale r₂))
  unfold addFinite
  dsimp only
  generalize min (f.scale r₁) (f.scale r₂) = base at first second
  generalize Format.scaleUp (f.significand r₁) (f.scale r₁ - base) = a at first
  generalize Format.scaleUp (f.significand r₂) (f.scale r₂ - base) = b at second
  rw [← first, ← second]
  -- The sum keeps the sign of both, or of the one with the larger magnitude.
  split
  next same =>
    subst same
    rw [place_ofQuotient _ one_pos]
    congr 2
    cases n₁ <;> simp [signed] <;> ring
  next opposite =>
    obtain rfl : n₂ = !n₁ := by cases n₁ <;> cases n₂ <;> simp_all
    split
    next equal =>
      subst equal
      have zero : signed n₁ (a * 2 ^ base : ℚ) + signed (!n₁) (a * 2 ^ base) = 0 := by
        cases n₁ <;> simp [signed]
      rw [zero, placeNear_zero]
      rfl
    next unequal =>
      split
      next less =>
        rw [place_ofQuotient _ one_pos, Nat.cast_sub less.le]
        congr 2
        cases n₁ <;> simp [signed] <;> ring
      next more =>
        rw [place_ofQuotient _ one_pos, Nat.cast_sub (Nat.not_lt.mp more)]
        congr 2
        cases n₁ <;> simp [signed] <;> ring

theorem exists_rank (h : x.isFinite = true) :
    ∃ negative rank, x = number negative rank ∧ rank.val < f.infinity := by
  cases x with
  | nan => simp [isFinite] at h
  | number negative rank => exact ⟨negative, rank, rfl, by simpa [isFinite] using h⟩

theorem place_add (hx : x.isFinite = true) (hy : y.isFinite = true) :
    (x + y).place = some (f.placeNear (x.units + y.units)) := by
  obtain ⟨n₁, r₁, rfl, h₁⟩ := exists_rank hx
  obtain ⟨n₂, r₂, rfl, h₂⟩ := exists_rank hy
  change (add (number n₁ r₁) (number n₂ r₂)).place = _
  rw [add, if_neg h₁.ne, if_neg h₂.ne, place_addFinite]
  rfl

theorem units_neg (x : Binary f) : x.neg.units = -x.units := by
  cases x with
  | nan => simp [neg, units]
  | number negative rank => cases negative <;> simp [neg, units, signed]

theorem isFinite_neg (x : Binary f) : x.neg.isFinite = x.isFinite := by
  cases x <;> rfl

theorem place_sub (hx : x.isFinite = true) (hy : y.isFinite = true) :
    (x - y).place = some (f.placeNear (x.units - y.units)) := by
  have sum := place_add hx (y := y.neg) (by rwa [isFinite_neg])
  rwa [units_neg, ← sub_eq_add_neg] at sum

theorem units_number (negative : Bool) (rank : Fin (f.infinity + 1)) :
    (number negative rank).units =
      signed negative (f.significand rank * 2 ^ (f.scale rank : Int)) := by
  rw [units, Format.units_eq]
  push_cast
  rfl

theorem place_mul (hx : x.isFinite = true) (hy : y.isFinite = true) :
    (x * y).place = some (f.placeNear (x.units * y.units * 2 ^ f.unitExponent)) := by
  obtain ⟨n₁, r₁, rfl, h₁⟩ := exists_rank hx
  obtain ⟨n₂, r₂, rfl, h₂⟩ := exists_rank hy
  change (mul (number n₁ r₁) (number n₂ r₂)).place = _
  rw [mul, if_neg (by omega), place_ofQuotient _ one_pos, units_number, units_number, ← signed_xor,
    ← signed_mul, zpow_add₀ two_ne_zero, zpow_add₀ two_ne_zero]
  congr 3
  push_cast
  ring

theorem place_div (hx : x.isFinite = true) (hy : y.isFinite = true) (nonzero : y.units ≠ 0) :
    (x / y).place = some (f.placeNear (x.units / y.units * 2 ^ (-f.unitExponent))) := by
  obtain ⟨n₁, r₁, rfl, h₁⟩ := exists_rank hx
  obtain ⟨n₂, r₂, rfl, h₂⟩ := exists_rank hy
  have positive : 0 < r₂.val := by
    refine Nat.pos_of_ne_zero fun zero => nonzero ?_
    rw [units, zero, Format.units_zero]
    cases n₂ <;> simp [signed]
  have divisor := f.significand_pos positive
  change (div (number n₁ r₁) (number n₂ r₂)).place = _
  rw [div, if_neg h₁.ne, if_neg h₂.ne, if_neg positive.ne', place_ofQuotient _ divisor,
    units_number, units_number, ← signed_div, ← signed_mul, sub_eq_add_neg, zpow_add₀ two_ne_zero,
    zpow_sub₀ two_ne_zero]
  congr 3
  ring

theorem place_convert (hx : x.isFinite = true) : (x.convert : Binary g).place =
    some (g.placeNear (x.units * 2 ^ (f.unitExponent - g.unitExponent))) := by
  obtain ⟨negative, rank, rfl, h⟩ := exists_rank hx
  rw [convert, if_neg h.ne, place_ofQuotient _ one_pos, units_number, ← signed_mul, add_sub_assoc,
    zpow_add₀ two_ne_zero]
  congr 3
  push_cast
  ring

protected theorem mul_comm (x y : Binary f) : x * y = y * x := by
  change mul x y = mul y x
  cases x with
  | nan => cases y <;> rfl
  | number n₁ r₁ =>
    cases y with
    | nan => rfl
    | number n₂ r₂ =>
      have exponents : (f.scale r₁ + f.scale r₂ + f.unitExponent : Int) =
          f.scale r₂ + f.scale r₁ + f.unitExponent := by ring
      simp only [mul, or_comm, bne_comm (a := n₁), Nat.mul_comm (f.significand r₁), exponents]

theorem addFinite_comm (n₁ n₂ : Bool) (r₁ r₂ : Nat) :
    (addFinite n₁ r₁ n₂ r₂ : Binary f) = addFinite n₂ r₂ n₁ r₁ := by
  unfold addFinite
  rw [min_comm]
  dsimp only
  generalize min (f.scale r₂) (f.scale r₁) = base
  generalize Format.scaleUp (f.significand r₁) (f.scale r₁ - base) = a
  generalize Format.scaleUp (f.significand r₂) (f.scale r₂ - base) = b
  rcases eq_or_ne n₁ n₂ with rfl | unlike
  · rw [if_pos rfl, if_pos rfl, Nat.add_comm]
  · rw [if_neg unlike, if_neg unlike.symm]
    rcases Nat.lt_trichotomy a b with less | rfl | more
    · rw [if_neg less.ne, if_neg less.not_gt, if_neg less.ne', if_pos less]
    · rw [if_pos rfl, if_pos rfl]
    · rw [if_neg more.ne', if_pos more, if_neg more.ne, if_neg more.not_gt]

protected theorem add_comm (x y : Binary f) : x + y = y + x := by
  change add x y = add y x
  cases x with
  | nan => cases y <;> rfl
  | number n₁ r₁ =>
    cases y with
    | nan => rfl
    | number n₂ r₂ =>
      rw [add, add]
      by_cases h₁ : r₁.val = f.infinity <;> by_cases h₂ : r₂.val = f.infinity
      · have ranks : r₁ = r₂ := Fin.ext (h₁.trans h₂.symm)
        rcases eq_or_ne n₁ n₂ with rfl | unlike
        · simp [ranks]
        · simp [h₁, h₂, unlike, unlike.symm]
      · simp [h₁, h₂]
      · simp [h₁, h₂]
      · rw [if_neg h₁, if_neg h₂, if_neg h₂, if_neg h₁, addFinite_comm]

theorem units_eq_of_place_eq (h : x.place = y.place) : x.units = y.units := by
  cases x with
  | nan =>
    cases y with
    | nan => rfl
    | number negative rank => simp [place] at h
  | number n₁ r₁ =>
    cases y with
    | nan => simp [place] at h
    | number n₂ r₂ =>
      rw [place_number, place_number, Option.some.injEq] at h
      -- Numbers of unlike signs at one place are both zero.
      rcases eq_or_ne n₁ n₂ with rfl | unlike
      · have ranks : r₁.val = r₂.val := by cases n₁ <;> simpa using h
        rw [units, units, ranks]
      · have zeros : r₁.val = 0 ∧ r₂.val = 0 := by
          cases n₁ <;> cases n₂ <;> simp only [ne_eq, not_true_eq_false] at unlike <;>
            simp only [Bool.false_eq_true, ↓reduceIte] at h <;> omega
        rw [units, units, zeros.1, zeros.2, Format.units_zero]
        simp [signed]

theorem le_iff_units (hx : x.isFinite = true) (hy : y.isFinite = true) :
    x ≤ y ↔ x.units ≤ y.units := by
  have places := (le_iff (x := x) (y := y))
  rw [place_finite hx, place_finite hy] at places
  simp only [Option.some.injEq, exists_and_left, exists_eq_left'] at places
  rw [places]
  refine ⟨fun h => ?_, f.placeNear_mono⟩
  by_contra reversed
  have order := f.placeNear_mono (not_le.mp reversed).le
  refine reversed (units_eq_of_place_eq ?_).le
  rw [place_finite hx, place_finite hy, le_antisymm h order]

theorem le_of_near (first : x.place = some (f.placeNear v))
    (second : y.place = some (f.placeNear w)) (h : v ≤ w) : x ≤ y :=
  le_iff.mpr ⟨_, _, first, second, f.placeNear_mono h⟩

protected theorem sub_le_sub_right (hx : x.isFinite = true) (hy : y.isFinite = true)
    (hz : z.isFinite = true) (h : x ≤ y) : x - z ≤ y - z :=
  le_of_near (place_sub hx hz) (place_sub hy hz)
    (sub_le_sub_right ((le_iff_units hx hy).mp h) z.units)

protected theorem div_le_div_right (hx : x.isFinite = true) (hy : y.isFinite = true)
    (hz : z.isFinite = true) (positive : 0 < z.units) (h : x ≤ y) : x / z ≤ y / z := by
  refine le_of_near (place_div hx hz positive.ne') (place_div hy hz positive.ne') ?_
  refine mul_le_mul_of_nonneg_right ?_ (by positivity)
  exact div_le_div_of_nonneg_right ((le_iff_units hx hy).mp h) positive.le

theorem convert_le_convert (hx : x.isFinite = true) (hy : y.isFinite = true) (h : x ≤ y) :
    (x.convert : Binary g) ≤ y.convert := by
  refine le_of_near (place_convert hx) (place_convert hy) ?_
  exact mul_le_mul_of_nonneg_right ((le_iff_units hx hy).mp h) (by positivity)

end PhotoCapture.Binary
