import PhotoCapture.Color.Single
import PhotoCapture.Proofs.Binary.Neutral

namespace PhotoCapture

namespace Binary

variable {x y : Single}

theorem isFinite_ofNat {n : Nat} (h : n < 256) : (ofNat n : Single).isFinite = true := by
  revert n
  decide +kernel

theorem toByte_ofNat {n : Nat} (h : n < 256) : (ofNat n : Single).toByte = UInt8.ofNat n := by
  revert n
  decide +kernel

theorem toByte_congr (h : x.place = y.place) : x.toByte = y.toByte := by
  by_cases zero : x.place = some 0
  · have byte {z : Single} (hz : z.place = some 0) : z.toByte = 0 := by
      obtain ⟨negative, rank, rfl, first⟩ := exists_rank_zero hz
      obtain rfl : rank = 0 := Fin.ext first
      cases negative <;> decide
    rw [byte zero, byte (h.symm.trans zero)]
  · rw [eq_of_place_eq h zero]

theorem equals_iff : x.equals y = true ↔ ∃ a, x.place = some a ∧ y.place = some a := by
  unfold equals
  cases x.place with
  | none => simp
  | some a => cases y.place with
    | none => simp
    | some b => simp [eq_comm]

end Binary

namespace ColorMatrix

open Binary

variable {a b c d x : Single} {r s : Row Single}

theorem place_mul_zero (hx : x.isFinite = true) : (x * 0).place = some 0 := by
  rw [Binary.mul_comm, place_zero_mul place_zero hx]

theorem place_sum_last (ha : a.place = some 0) (hb : b.place = some 0) (hc : c.place = some 0) :
    (a + b + c + d).place = d.place := by
  have two : (a + b).place = some 0 := (place_zero_add ha).trans hb
  have three : (a + b + c).place = some 0 := (place_zero_add two).trans hc
  exact place_zero_add three

theorem nan_sum (h : a = nan ∨ b = nan ∨ c = nan ∨ d = nan) : a + b + c + d = nan := by
  rcases h with rfl | rfl | rfl | rfl <;> simp

namespace Row

def places (r : Row Single) : List (Option Int) := r.toList.map place

def equals (r s : Row Single) : Bool := (r.toList.zip s.toList).all fun (a, b) => a.equals b

def IsFinite (r : Row Single) : Prop := ∀ x ∈ r.toList, x.isFinite = true

instance (r : Row Single) : Decidable r.IsFinite :=
  inferInstanceAs (Decidable (∀ x ∈ r.toList, _))

theorem isFinite_iff : r.IsFinite ↔ r.red.isFinite = true ∧ r.green.isFinite = true ∧
    r.blue.isFinite = true ∧ r.alpha.isFinite = true ∧ r.offset.isFinite = true := by
  simp [IsFinite, toList]

theorem isFinite_congr (h : r.places = s.places) (finite : s.IsFinite) : r.IsFinite := by
  intro x hx
  have mem : x.place ∈ s.places := h ▸ List.mem_map_of_mem hx
  obtain ⟨y, hy, same⟩ := List.mem_map.mp mem
  rw [← Binary.isFinite_congr same]
  exact finite y hy

theorem places_concat_identity (h : r.IsFinite) : (r.concat identity).places = r.places := by
  obtain ⟨ha, hb, hc, hd, -⟩ := isFinite_iff.mp h
  have first := place_mul_zero ha
  have second := place_mul_zero hb
  have third := place_mul_zero hc
  have fourth := place_mul_zero hd
  simp only [places, toList, concat, identity, keepAlpha, List.map, List.cons.injEq, and_true]
  refine ⟨?_, ?_, ?_, ?_, ?_⟩
  · rw [place_add_zero fourth, place_add_zero third, place_add_zero second, place_mul_one]
  · rw [place_add_zero fourth, place_add_zero third, place_zero_add first, place_mul_one]
  · rw [place_add_zero fourth, place_zero_add ((place_zero_add first).trans second), place_mul_one]
  · rw [place_sum_last first second third, place_mul_one]
  · rw [place_zero_add ((place_sum_last first second third).trans fourth)]

end Row

section Pixels

theorem length_lt_four {rest : List UInt8}
    (few : ∀ r g b a more, rest = r :: g :: b :: a :: more → False) : rest.length < 4 := by
  match rest with
  | [] | [_] | [_, _] | [_, _, _] => simp
  | r :: g :: b :: a :: more => exact (few r g b a more rfl).elim

theorem length_applyPixels (m : ColorMatrix Single) (pixels : List UInt8) :
    (m.applyPixels pixels).length = pixels.length := by
  fun_induction applyPixels m pixels with
  | case1 r g b a rest ih => simp [pixel, ih]
  | case2 rest few => rfl

/-- Every whole pixel is changed on its own. -/
theorem exists_pixel (m : ColorMatrix Single) (pixels : List UInt8) {i : Nat}
    (whole : 4 * i + 3 < pixels.length) :
    ∃ r g b a, ∀ k < 4, pixels[4 * i + k]? = [r, g, b, a][k]? ∧
      (m.applyPixels pixels)[4 * i + k]? = (m.pixel r g b a)[k]? := by
  fun_induction applyPixels m pixels generalizing i with
  | case1 r g b a rest ih =>
    cases i with
    | zero =>
      refine ⟨r, g, b, a, fun k hk => ?_⟩
      rw [Nat.mul_zero, Nat.zero_add]
      have first : k < [r, g, b, a].length := hk
      exact ⟨List.getElem?_append_left first, List.getElem?_append_left hk⟩
    | succ i =>
      obtain ⟨r', g', b', a', later⟩ := ih (i := i) (by simp only [List.length_cons] at whole; omega)
      refine ⟨r', g', b', a', fun k hk => ?_⟩
      have back : 4 * (i + 1) + k = 4 * i + k + 4 := by omega
      rw [back]
      exact later k hk
  | case2 rest few => exact absurd (length_lt_four few) (by omega)

end Pixels

/-- The rows of red, green and blue are finite. -/
def ColorsFinite (m : ColorMatrix Single) : Prop :=
  m.red.IsFinite ∧ m.green.IsFinite ∧ m.blue.IsFinite

instance (m : ColorMatrix Single) : Decidable m.ColorsFinite :=
  inferInstanceAs (Decidable (_ ∧ _))

theorem ColorsFinite.concat_identity {m : ColorMatrix Single} (h : m.ColorsFinite) :
    (concat m identity).ColorsFinite :=
  ⟨Row.isFinite_congr (Row.places_concat_identity h.1) h.1,
    Row.isFinite_congr (Row.places_concat_identity h.2.1) h.2.1,
    Row.isFinite_congr (Row.places_concat_identity h.2.2) h.2.2⟩

end ColorMatrix

end PhotoCapture
