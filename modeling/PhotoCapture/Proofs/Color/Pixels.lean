import PhotoCapture.Proofs.Binary.Scaling
import PhotoCapture.Proofs.Color.Single
import PhotoCapture.Proofs.Filter.Stages
import Mathlib.Data.List.Forall2
import Mathlib.Data.Rat.Floor

namespace PhotoCapture

namespace Binary

/-- The nearest whole number, a half away from zero. -/
def roundAway (v : ℚ) : ℤ := if 0 ≤ v then ⌊v + 1 / 2⌋ else ⌈v - 1 / 2⌉

/-- The byte is the nearest whole number, held between 0 and 255; not-a-number gives 0. -/
structure RoundsTo (x : Single) (byte : UInt8) : Prop where
  nan : x = nan → byte = 0
  below : x = infinite true → byte = 0
  above : x = infinite false → byte = 255
  finite : x.isFinite = true → byte.toNat = min (roundAway x.value).toNat 255

theorem roundAway_nonpos {v : ℚ} (h : v ≤ 0) : roundAway v ≤ 0 := by
  unfold roundAway
  split
  next nonneg =>
    obtain rfl := le_antisymm h nonneg
    norm_num
  next => exact Int.ceil_le.mpr (by push_cast; linarith)

theorem roundAway_div (n half : Nat) (positive : 0 < half) :
    roundAway (n / (2 * half : Nat)) = ((n + half) / (2 * half) : Nat) := by
  have shifted : (n / (2 * half : Nat) + 1 / 2 : ℚ) = (n + half : Nat) / (2 * half : Nat) := by
    have : (half : ℚ) ≠ 0 := by exact_mod_cast positive.ne'
    push_cast
    field_simp
  rw [roundAway, if_pos (by positivity), shifted, Rat.floor_natCast_div_natCast]
  rfl

theorem value_number (negative : Bool) (rank : Fin (Format.single.infinity + 1)) :
    (number negative rank : Single).value =
      signed negative (Format.single.units rank / (2 * 2 ^ 148 : Nat)) := by
  have exponent : Format.single.unitExponent = -149 := by decide
  rw [value, units, exponent, div_eq_mul_inv, signed_mul]
  norm_num

theorem roundsTo_toByte (x : Single) : RoundsTo x x.toByte where
  nan := by
    rintro rfl
    rfl
  below := by
    rintro rfl
    rfl
  above := by
    rintro rfl
    decide
  finite h := by
    obtain ⟨negative, rank, rfl, finite⟩ := exists_rank h
    rw [value_number]
    cases negative with
    | true =>
      have low : roundAway (signed true (Format.single.units rank / (2 * 2 ^ 148 : Nat))) ≤ 0 :=
        roundAway_nonpos (neg_nonpos.mpr (by positivity))
      have zero : (number true rank : Single).toByte = 0 := rfl
      rw [zero, Int.toNat_of_nonpos low]
      rfl
    | false =>
      have small := Nat.lt_succ_of_le
        (Nat.min_le_right ((Format.single.units rank + 2 ^ 148) / 2 ^ 149) 255)
      have rounded : roundAway (signed false (Format.single.units rank / (2 * 2 ^ 148 : Nat))) =
          ((Format.single.units rank + 2 ^ 148) / 2 ^ 149 : Nat) :=
        roundAway_div _ (2 ^ 148) (by positivity)
      rw [toByte_number finite, UInt8.toNat_ofNat_of_lt' small, rounded, Int.toNat_natCast]

end Binary

def Rgba.ofBytes (r g b a : UInt8) : Rgba Single :=
  ⟨.ofNat r.toNat, .ofNat g.toNat, .ofNat b.toNat, .ofNat a.toNat⟩

def Rgba.channels {α : Type} (x : Rgba α) : List α := [x.red, x.green, x.blue, x.alpha]

namespace ColorMatrix

open Binary (RoundsTo)

variable (m : ColorMatrix Single)

theorem roundsTo_pixel (r g b a : UInt8) :
    List.Forall₂ RoundsTo (m.apply (.ofBytes r g b a)).channels (m.pixel r g b a) :=
  .cons (Binary.roundsTo_toByte _) (.cons (Binary.roundsTo_toByte _)
    (.cons (Binary.roundsTo_toByte _) (.cons (Binary.roundsTo_toByte _) .nil)))

theorem applyPixels_of_length_lt {rest : List UInt8} (few : rest.length < 4) :
    m.applyPixels rest = rest := by
  match rest with
  | [] | [_] | [_, _] | [_, _, _] => rfl
  | _ :: _ :: _ :: _ :: _ => simp only [List.length_cons] at few; omega

theorem applyPixels_append {first : List UInt8} (whole : first.length % 4 = 0)
    (second : List UInt8) :
    m.applyPixels (first ++ second) = m.applyPixels first ++ m.applyPixels second := by
  fun_induction applyPixels m first with
  | case1 r g b a rest ih =>
    have later := ih (by simp only [List.length_cons] at whole; omega)
    simp only [List.cons_append, applyPixels, later, List.append_assoc]
  | case2 rest few =>
    have short := length_lt_four few
    obtain rfl : rest = [] := List.length_eq_zero_iff.mp (by omega)
    rfl

theorem applyPixels_split (pixels : List UInt8) (k : Nat) :
    m.applyPixels pixels =
      m.applyPixels (pixels.take (4 * k)) ++ m.applyPixels (pixels.drop (4 * k)) := by
  rcases Nat.le_total (4 * k) pixels.length with inside | beyond
  · have whole : (pixels.take (4 * k)).length % 4 = 0 := by
      rw [List.length_take_of_le inside, Nat.mul_mod_right]
    rw [← applyPixels_append m whole, List.take_append_drop]
  · rw [List.take_of_length_le beyond, List.drop_of_length_le beyond]
    exact (List.append_nil _).symm

theorem drop_applyPixels (pixels : List UInt8) (k : Nat) :
    (m.applyPixels pixels).drop (4 * k) = m.applyPixels (pixels.drop (4 * k)) := by
  rcases Nat.le_total (4 * k) pixels.length with inside | beyond
  · have length : (m.applyPixels (pixels.take (4 * k))).length = 4 * k := by
      rw [length_applyPixels, List.length_take_of_le inside]
    rw [applyPixels_split m pixels k]
    exact List.drop_left' length
  · rw [List.drop_of_length_le beyond]
    exact List.drop_of_length_le (by rwa [length_applyPixels])

/-- Every matrix, whatever its coefficients are, changes a picture pixel by pixel, each from the
bytes that were there before. -/
theorem pictures_change_pixel_by_pixel (pixels : List UInt8) :
    (m.applyPixels pixels).length = pixels.length ∧
    (m.applyPixels pixels).drop (4 * (pixels.length / 4)) =
      pixels.drop (4 * (pixels.length / 4)) ∧
    (∀ k, m.applyPixels pixels =
      m.applyPixels (pixels.take (4 * k)) ++ m.applyPixels (pixels.drop (4 * k))) ∧
    ∀ i, 4 * i + 3 < pixels.length → ∃ r g b a,
      (pixels.drop (4 * i)).take 4 = [r, g, b, a] ∧
      List.Forall₂ RoundsTo (m.apply (.ofBytes r g b a)).channels
        (((m.applyPixels pixels).drop (4 * i)).take 4) := by
  refine ⟨length_applyPixels m pixels, ?_, applyPixels_split m pixels, fun i complete => ?_⟩
  · have few : (pixels.drop (4 * (pixels.length / 4))).length < 4 := by
      rw [List.length_drop]
      omega
    rw [drop_applyPixels, applyPixels_of_length_lt m few]
  · have long : 4 ≤ (pixels.drop (4 * i)).length := by
      rw [List.length_drop]
      omega
    rw [drop_applyPixels]
    match pixels.drop (4 * i), long with
    | r :: g :: b :: a :: rest, _ => exact ⟨r, g, b, a, rfl, roundsTo_pixel m r g b a⟩

/-- A matrix whose rows give a half, more than a byte holds, a negative number and no number, on
two pixels and two bytes more. -/
theorem extreme_matrix_changes_pixels :
    let m : ColorMatrix Single :=
      ⟨⟨0.5, 0, 0, 0, 0⟩, ⟨0, 1e38, 0, 0, 0⟩, ⟨0, 0, -1, 0, 0⟩, ⟨0, 0, 0, .infinite false, 0⟩⟩
    let pixels : List UInt8 := [3, 9, 8, 0, 5, 0, 1, 7, 200, 100]
    m.applyPixels pixels = [2, 255, 0, 0, 3, 0, 0, 255, 200, 100] ∧
      4 * 1 + 3 < pixels.length ∧ ∃ r g b a,
        (pixels.drop (4 * 1)).take 4 = [r, g, b, a] ∧
        List.Forall₂ RoundsTo (m.apply (.ofBytes r g b a)).channels
          (((m.applyPixels pixels).drop (4 * 1)).take 4) := by
  intro m pixels
  have complete : 4 * 1 + 3 < pixels.length := by decide
  have changed : m.applyPixels pixels = [2, 255, 0, 0, 3, 0, 0, 255, 200, 100] := by
    decide +kernel
  exact ⟨changed, complete, (pictures_change_pixel_by_pixel m pixels).2.2.2 1 complete⟩

end ColorMatrix

end PhotoCapture
