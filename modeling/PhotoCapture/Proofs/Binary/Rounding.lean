import PhotoCapture.Binary.Basic
import Mathlib.Algebra.Order.Field.Power
import Mathlib.Data.Rat.Cast.Order
import Mathlib.Tactic.Linarith
import Mathlib.Tactic.Positivity
import Mathlib.Tactic.Ring

namespace PhotoCapture.Binary.Format

variable {f : Format} {n d n' d' : Nat} {e e' : Int}

theorem scaleUp_eq (n places : Nat) : scaleUp n places = n * 2 ^ places := by
  unfold scaleUp
  split
  next h => simp [h]
  next => rw [Nat.shiftLeft_eq]

theorem scaleUp_div_scaleUp (n d : Nat) (s : Int) :
    (scaleUp n (-s).toNat : ℚ) / (scaleUp d s.toNat : ℚ) = (n : ℚ) / d * 2 ^ (-s) := by
  simp only [scaleUp_eq, Nat.cast_mul, Nat.cast_pow, Nat.cast_ofNat]
  obtain ⟨k, rfl | rfl⟩ := Int.eq_nat_or_neg s
  · have h : (-(k : Int)).toNat = 0 := by omega
    rw [h, Int.toNat_natCast, pow_zero, mul_one, zpow_neg, zpow_natCast, div_mul_eq_div_div,
      div_eq_mul_inv _ ((2 : ℚ) ^ k)]
  · have h : (-(k : Int)).toNat = 0 := by omega
    rw [h, neg_neg, Int.toNat_natCast, pow_zero, mul_one, zpow_natCast, mul_div_right_comm]

theorem scaleUp_pos (hn : 0 < n) (places : Nat) : 0 < scaleUp n places := by
  rw [scaleUp_eq]
  positivity

theorem quotient_bounds (hn : 0 < n) (hd : 0 < d) :
    (2 : ℚ) ^ ((n.log2 : Int) - d.log2 - 1) < (n : ℚ) / d ∧
      (n : ℚ) / d < 2 ^ ((n.log2 : Int) - d.log2 + 1) := by
  have hd' : (0 : ℚ) < d := by exact_mod_cast hd
  have nlow : (2 : ℚ) ^ n.log2 ≤ n := by exact_mod_cast Nat.log2_self_le hn.ne'
  have nhigh : (n : ℚ) < 2 ^ (n.log2 + 1) := by exact_mod_cast Nat.lt_log2_self (n := n)
  have dlow : (2 : ℚ) ^ d.log2 ≤ d := by exact_mod_cast Nat.log2_self_le hd.ne'
  have dhigh : (d : ℚ) < 2 ^ (d.log2 + 1) := by exact_mod_cast Nat.lt_log2_self (n := d)
  constructor
  · have power : (2 : ℚ) ^ ((n.log2 : Int) - d.log2 - 1) = 2 ^ n.log2 / 2 ^ (d.log2 + 1) := by
      rw [sub_sub, zpow_sub₀ two_ne_zero, zpow_natCast]
      norm_cast
    rw [power]
    exact div_lt_div₀' nlow dhigh (by positivity) (by positivity)
  · have power : (2 : ℚ) ^ ((n.log2 : Int) - d.log2 + 1) = 2 ^ (n.log2 + 1) / 2 ^ d.log2 := by
      rw [sub_add_eq_add_sub, zpow_sub₀ two_ne_zero, zpow_natCast]
      norm_cast
    rw [power]
    exact div_lt_div₀ nhigh dlow (by positivity) (by positivity)

theorem floorLog_bounds (hn : 0 < n) (hd : 0 < d) :
    (2 : ℚ) ^ floorLog n d ≤ (n : ℚ) / d ∧ (n : ℚ) / d < 2 ^ (floorLog n d + 1) := by
  obtain ⟨low, high⟩ := quotient_bounds hn hd
  unfold floorLog
  split
  next h =>
    have self : (2 : ℚ) ^ n.log2 ≤ n := by exact_mod_cast Nat.log2_self_le hn.ne'
    subst h
    have one : Nat.log2 1 = 0 := by decide
    simp only [one, Nat.cast_one, div_one, Nat.cast_zero, sub_zero] at high ⊢
    exact ⟨by simpa using self, high⟩
  next =>
    dsimp only
    generalize (n.log2 : Int) - d.log2 = g at low high
    have positive : (0 : ℚ) < scaleUp d g.toNat := by exact_mod_cast scaleUp_pos hd g.toNat
    have test : scaleUp d g.toNat ≤ scaleUp n (-g).toNat ↔ (2 : ℚ) ^ g ≤ (n : ℚ) / d := by
      rw [← Nat.cast_le (α := ℚ), ← one_le_div positive, scaleUp_div_scaleUp, zpow_neg,
        ← div_eq_mul_inv, one_le_div (by positivity)]
    split
    next h => exact ⟨test.mp h, high⟩
    next h =>
      rw [sub_add_cancel]
      exact ⟨low.le, not_le.mp fun hle => h (test.mpr hle)⟩

/-- A whole number is exceeded in rounding exactly by the quotients beyond the half behind it, and
by the half itself where the number is odd. -/
theorem lt_roundHalfEven_iff (hd : 0 < d) (k : Nat) :
    k < roundHalfEven n d ↔
      (2 * k + 1 : ℚ) < 2 * (n / d) ∨ (2 * k + 1 : ℚ) = 2 * (n / d) ∧ k % 2 = 1 := by
  have hd' : (0 : ℚ) < d := by exact_mod_cast hd
  have less : (2 * k + 1 : ℚ) < 2 * (n / d) ↔ (2 * k + 1) * d < 2 * n := by
    rw [← mul_div_assoc, lt_div_iff₀ hd']
    norm_cast
  have same : (2 * k + 1 : ℚ) = 2 * (n / d) ↔ (2 * k + 1) * d = 2 * n := by
    rw [← mul_div_assoc, eq_div_iff hd'.ne']
    norm_cast
  rw [less, same]
  have parts := Nat.div_add_mod n d
  have rest := Nat.mod_lt n hd
  unfold roundHalfEven
  dsimp only
  generalize n / d = q at parts
  generalize n % d = r at parts rest
  subst parts
  rcases Nat.lt_trichotomy k q with below | rfl | above
  · obtain ⟨j, rfl⟩ := Nat.exists_eq_add_of_lt below
    have beyond : (2 * k + 1) * d < 2 * (d * (k + j + 1) + r) := by nlinarith [Nat.zero_le (d * j)]
    refine iff_of_true ?_ (Or.inl beyond)
    split <;> omega
  · have step : (2 * k + 1) * d = 2 * (d * k) + d := by ring
    rw [step, mul_add, Nat.add_lt_add_iff_left, Nat.add_right_inj]
    split
    next h => exact iff_of_true (Nat.lt_succ_self k) h
    next h => exact iff_of_false (Nat.lt_irrefl k) h
  · obtain ⟨j, rfl⟩ := Nat.exists_eq_add_of_lt above
    have short : 2 * (d * q + r) < (2 * (q + j + 1) + 1) * d := by nlinarith [Nat.zero_le (d * j)]
    refine iff_of_false ?_ (by omega)
    split <;> omega

theorem roundHalfEven_mono (hd : 0 < d) (hd' : 0 < d') (h : (n : ℚ) / d ≤ n' / d') :
    roundHalfEven n d ≤ roundHalfEven n' d' := by
  refine le_of_forall_lt fun k hk => ?_
  rw [lt_roundHalfEven_iff hd'] 
  rcases (lt_roundHalfEven_iff hd k).mp hk with beyond | ⟨half, odd⟩
  · exact Or.inl (by linarith)
  · rcases h.lt_or_eq with less | same
    · exact Or.inl (by linarith)
    · exact Or.inr ⟨by rw [half, same], odd⟩

theorem roundHalfEven_one (k : Nat) : roundHalfEven k 1 = k := by
  simp [roundHalfEven, Nat.mod_one]

theorem le_roundHalfEven (hd : 0 < d) {k : Nat} (h : (k : ℚ) ≤ n / d) :
    k ≤ roundHalfEven n d := by
  rw [← roundHalfEven_one k]
  exact roundHalfEven_mono one_pos hd (by simpa using h)

theorem roundHalfEven_le (hd : 0 < d) {k : Nat} (h : (n : ℚ) / d ≤ k) :
    roundHalfEven n d ≤ k := by
  rw [← roundHalfEven_one k]
  exact roundHalfEven_mono hd one_pos (by simpa using h)

theorem leading_pos (f : Format) : 0 < f.leading := by
  rw [f.leading_eq]
  exact Nat.two_pow_pos _

theorem nearest_le_infinity (f : Format) (n d : Nat) (e : Int) : f.nearest n d e ≤ f.infinity := by
  unfold nearest
  split
  · exact Nat.zero_le _
  · exact Nat.min_le_right _ _

/-- What is rounded is counted in steps of one power of two, which the binade of the quotient
decides. -/
theorem nearest_steps (f : Format) (e : Int) (hn : 0 < n) (hd : 0 < d) :
    ∃ (l : Int) (a b : Nat), 0 < b ∧
      (2 : ℚ) ^ l ≤ (n : ℚ) / d * 2 ^ e ∧ (n : ℚ) / d * 2 ^ e < 2 ^ (l + 1) ∧
      (a : ℚ) / b = (n : ℚ) / d * 2 ^ e / 2 ^ (l - f.fractionBits).toNat ∧
      f.nearest n d e =
        min (roundHalfEven a b + (l - f.fractionBits).toNat * f.leading) f.infinity := by
  obtain ⟨low, high⟩ := floorLog_bounds hn hd
  have power : (0 : ℚ) < 2 ^ e := by positivity
  let shift : Int := (floorLog n d + e - f.fractionBits).toNat - e
  refine ⟨floorLog n d + e, scaleUp n (-shift).toNat, scaleUp d shift.toNat, scaleUp_pos hd _,
    ?_, ?_, ?_, ?_⟩
  · rw [zpow_add₀ two_ne_zero]
    exact mul_le_mul_of_nonneg_right low power.le
  · rw [add_right_comm, zpow_add₀ two_ne_zero]
    exact mul_lt_mul_of_pos_right high power
  · rw [scaleUp_div_scaleUp, neg_sub, zpow_sub₀ two_ne_zero, zpow_natCast, mul_div_assoc]
  · rw [nearest, if_neg hn.ne']

theorem steps_le {l : Int} {a b : Nat} {v : ℚ} (hb : 0 < b) (high : v < 2 ^ (l + 1))
    (steps : (a : ℚ) / b = v / 2 ^ (l - f.fractionBits).toNat) :
    roundHalfEven a b ≤ 2 * f.leading := by
  apply roundHalfEven_le hb
  rw [steps, div_le_iff₀ (by positivity), f.leading_eq]
  refine high.le.trans ?_
  push_cast
  rw [← pow_succ', ← pow_add, ← zpow_natCast]
  exact zpow_le_zpow_right₀ one_le_two (by push_cast; omega)

theorem le_steps {l : Int} {a b : Nat} {v : ℚ} (hb : 0 < b) (low : 2 ^ l ≤ v)
    (steps : (a : ℚ) / b = v / 2 ^ (l - f.fractionBits).toNat)
    (normal : (f.fractionBits : Int) ≤ l) : f.leading ≤ roundHalfEven a b := by
  apply le_roundHalfEven hb
  rw [steps, le_div_iff₀ (by positivity), f.leading_eq]
  refine le_trans ?_ low
  push_cast
  rw [← pow_add, ← zpow_natCast]
  exact zpow_le_zpow_right₀ one_le_two (by push_cast; omega)

theorem nearest_mono (f : Format) (hd : 0 < d) (hd' : 0 < d')
    (h : (n : ℚ) / d * 2 ^ e ≤ (n' : ℚ) / d' * 2 ^ e') : f.nearest n d e ≤ f.nearest n' d' e' := by
  rcases Nat.eq_zero_or_pos n with rfl | hn
  · simp [nearest]
  have positive : (0 : ℚ) < (n : ℚ) / d * 2 ^ e := by positivity
  have hn' : 0 < n' := by
    refine Nat.pos_of_ne_zero fun zero => ?_
    simp only [zero, Nat.cast_zero, zero_div, zero_mul] at h
    exact absurd h (not_le.mpr positive)
  obtain ⟨l, a, b, hb, low, high, steps, rank⟩ := f.nearest_steps e hn hd
  obtain ⟨l', a', b', hb', low', high', steps', rank'⟩ := f.nearest_steps e' hn' hd'
  have order : l < l' + 1 :=
    (zpow_lt_zpow_iff_right₀ one_lt_two).mp (low.trans_lt (h.trans_lt high'))
  rw [rank, rank']
  refine min_le_min_right _ ?_
  -- The steps of a finer spacing all lie below those of a coarser one.
  rcases Nat.lt_or_ge (l - f.fractionBits).toNat (l' - f.fractionBits).toNat with finer | same
  · have most := steps_le hb high steps
    have least := le_steps hb' low' steps' (by omega)
    have binade := Nat.mul_le_mul_right f.leading (Nat.succ_le_of_lt finer)
    rw [Nat.succ_mul] at binade
    omega
  · have equal : (l - f.fractionBits).toNat = (l' - f.fractionBits).toNat := by omega
    rw [equal] at steps ⊢
    refine Nat.add_le_add_right (roundHalfEven_mono hb hb' ?_) _
    rw [steps, steps']
    exact div_le_div_of_nonneg_right h (by positivity)

theorem scale_eq (f : Format) (rank : Nat) : f.scale rank = rank / f.leading - 1 := by
  rw [scale, Nat.shiftRight_eq_div_pow, f.leading_eq]

theorem units_eq (f : Format) (rank : Nat) :
    f.units rank = f.significand rank * 2 ^ f.scale rank := scaleUp_eq _ _

theorem significand_of_lt {rank : Nat} (h : rank < f.leading) :
    f.significand rank = rank ∧ f.scale rank = 0 := by
  rw [significand, if_pos h, scale_eq, Nat.mod_eq_of_lt h, Nat.div_eq_of_lt h]
  exact ⟨rfl, rfl⟩

theorem significand_of_le {rank : Nat} (h : f.leading ≤ rank) :
    f.leading ≤ f.significand rank ∧ f.significand rank < 2 * f.leading := by
  have fraction := Nat.mod_lt rank f.leading_pos
  rw [significand, if_neg (Nat.not_lt.mpr h)]
  omega

theorem units_zero (f : Format) : f.units 0 = 0 := by
  rw [units_eq, (significand_of_lt f.leading_pos).1, Nat.zero_mul]

theorem significand_pos (f : Format) {rank : Nat} (h : 0 < rank) : 0 < f.significand rank := by
  rcases Nat.lt_or_ge rank f.leading with subnormal | normal
  · rwa [(significand_of_lt subnormal).1]
  · exact f.leading_pos.trans_le (significand_of_le normal).1

/-- A rank counts the steps of all the binades up to it. -/
theorem significand_add_scale (f : Format) (rank : Nat) :
    f.significand rank + f.scale rank * f.leading = rank := by
  rcases Nat.lt_or_ge rank f.leading with h | h
  · obtain ⟨whole, zero⟩ := significand_of_lt h
    rw [whole, zero, Nat.zero_mul, Nat.add_zero]
  · have parts := Nat.div_add_mod' rank f.leading
    have binade := Nat.div_pos h f.leading_pos
    rw [significand, if_neg (Nat.not_lt.mpr h), scale_eq, Nat.sub_mul, Nat.one_mul]
    have first := Nat.mul_le_mul_right f.leading binade
    omega

theorem leading_eq_zpow (f : Format) : (f.leading : ℚ) = 2 ^ (f.fractionBits : Int) := by
  rw [f.leading_eq]
  norm_cast

/-- The binade of a magnitude decides the spacing of its neighbours, which is its own scale. -/
theorem spacing_eq_scale {l : Int} {rank : Nat}
    (low : (2 : ℚ) ^ l ≤ f.significand rank * 2 ^ f.scale rank)
    (high : (f.significand rank * 2 ^ f.scale rank : ℚ) < 2 ^ (l + 1)) :
    (l - f.fractionBits).toNat = f.scale rank := by
  rcases Nat.lt_or_ge rank f.leading with h | h
  · obtain ⟨whole, zero⟩ := significand_of_lt h
    have small : (rank : ℚ) < f.leading := by exact_mod_cast h
    rw [whole, zero, pow_zero, mul_one] at low
    rw [leading_eq_zpow] at small
    have below := (zpow_lt_zpow_iff_right₀ one_lt_two).mp (low.trans_lt small)
    omega
  · obtain ⟨least, most⟩ := significand_of_le h
    have least' : (f.leading : ℚ) ≤ f.significand rank := by exact_mod_cast least
    have most' : (f.significand rank : ℚ) < 2 * f.leading := by exact_mod_cast most
    have bottom : (2 : ℚ) ^ ((f.fractionBits : Int) + f.scale rank) ≤
        f.significand rank * 2 ^ f.scale rank := by
      rw [zpow_add₀ two_ne_zero, ← leading_eq_zpow, zpow_natCast]
      exact mul_le_mul_of_nonneg_right least' (by positivity)
    have top : (f.significand rank * 2 ^ f.scale rank : ℚ) <
        2 ^ (1 + (f.fractionBits : Int) + f.scale rank) := by
      rw [zpow_add₀ two_ne_zero, zpow_add₀ two_ne_zero, ← leading_eq_zpow, zpow_natCast, zpow_one]
      exact mul_lt_mul_of_pos_right most' (by positivity)
    have above := (zpow_lt_zpow_iff_right₀ one_lt_two).mp (bottom.trans_lt high)
    have below := (zpow_lt_zpow_iff_right₀ one_lt_two).mp (low.trans_lt top)
    omega

/-- A number of units that a magnitude has is rounded to that magnitude. -/
theorem nearest_units (f : Format) (rank : Nat) :
    f.nearest (f.units rank) 1 0 = min rank f.infinity := by
  rcases Nat.eq_zero_or_pos rank with rfl | positive
  · simp [nearest, units_zero]
  have value : (f.units rank : ℚ) / (1 : Nat) * 2 ^ (0 : Int) =
      f.significand rank * 2 ^ f.scale rank := by
    rw [units_eq]
    simp
  have hn : 0 < f.units rank := by
    have := significand_pos f positive
    rw [units_eq]
    positivity
  obtain ⟨l, a, b, hb, low, high, steps, nearest⟩ := f.nearest_steps 0 hn one_pos
  rw [value] at low high steps
  have spacing := spacing_eq_scale low high
  rw [spacing, mul_div_cancel_right₀ _ (by positivity)] at steps
  have whole : roundHalfEven a b = f.significand rank :=
    le_antisymm (roundHalfEven_le hb steps.le) (le_roundHalfEven hb steps.ge)
  rw [nearest, spacing, whole, significand_add_scale]

theorem units_lt_units (f : Format) {r s : Nat} (h : r < s) (bound : s ≤ f.infinity) :
    f.units r < f.units s := by
  by_contra reversed
  have order : ((f.units s : Nat) : ℚ) / (1 : Nat) * 2 ^ (0 : Int) ≤
      ((f.units r : Nat) : ℚ) / (1 : Nat) * 2 ^ (0 : Int) := by
    have : (f.units s : ℚ) ≤ f.units r := by exact_mod_cast Nat.le_of_not_lt reversed
    simpa using this
  have ranks := f.nearest_mono one_pos one_pos order
  rw [nearest_units, nearest_units] at ranks
  omega

/-- The rank of the magnitude nearest to a rational number of units, whatever its sign. -/
def rankNear (f : Format) (v : ℚ) : Nat := f.nearest v.num.natAbs v.den 0

theorem abs_eq_natAbs_div (v : ℚ) : (v.num.natAbs : ℚ) / v.den * 2 ^ (0 : Int) = |v| := by
  rw [zpow_zero, mul_one, Nat.cast_natAbs, Int.cast_abs, ← Nat.abs_cast v.den, ← abs_div,
    Rat.num_div_den]

theorem nearest_eq_rankNear (f : Format) (hd : 0 < d) {v : ℚ}
    (h : (n : ℚ) / d * 2 ^ e = |v|) : f.nearest n d e = f.rankNear v := by
  rw [← abs_eq_natAbs_div] at h
  exact le_antisymm (f.nearest_mono hd v.den_pos h.le) (f.nearest_mono v.den_pos hd h.ge)

theorem rankNear_mono (f : Format) {v w : ℚ} (h : |v| ≤ |w|) : f.rankNear v ≤ f.rankNear w := by
  refine f.nearest_mono v.den_pos w.den_pos ?_
  rwa [abs_eq_natAbs_div, abs_eq_natAbs_div]

theorem rankNear_le_infinity (f : Format) (v : ℚ) : f.rankNear v ≤ f.infinity :=
  f.nearest_le_infinity _ _ _

/-- The place in the order of numbers of the one nearest to a rational number of units. -/
def placeNear (f : Format) (v : ℚ) : Int := if v < 0 then -f.rankNear v else f.rankNear v

theorem placeNear_mono (f : Format) {v w : ℚ} (h : v ≤ w) : f.placeNear v ≤ f.placeNear w := by
  unfold placeNear
  split
  next hv =>
    split
    next hw =>
      have := f.rankNear_mono (abs_le_abs_of_nonpos hw.le h)
      omega
    next => omega
  next hv =>
    have positive := not_lt.mp hv
    rw [if_neg (not_lt.mpr (positive.trans h))]
    exact_mod_cast f.rankNear_mono (abs_le_abs_of_nonneg positive h)

end PhotoCapture.Binary.Format
