import PhotoCapture.Proofs.Color.Alpha
import PhotoCapture.Proofs.Color.Grey
import Mathlib.Data.List.Forall2

namespace PhotoCapture

namespace Binary

variable {x y : Single}

theorem place_eq_iff : x.place = y.place ↔ x.equals y = true ∨ x = nan ∧ y = nan := by
  rw [equals_iff]
  cases x <;> cases y <;> simp [place, eq_comm]

end Binary

namespace ColorMatrix

open Binary

variable {w x y z : Single} {m n : ColorMatrix Single}

/-- Equal as numbers, or not a number in both, coefficient by coefficient. -/
def Agrees (m n : ColorMatrix Single) : Prop :=
  List.Forall₂ (fun x y => x.equals y = true ∨ x = nan ∧ y = nan) m.toList n.toList

def IsFinite (m : ColorMatrix Single) : Prop := ∀ x ∈ m.toList, x.isFinite = true

instance (m : ColorMatrix Single) : Decidable m.IsFinite :=
  inferInstanceAs (Decidable (∀ x ∈ m.toList, _))

theorem agrees_iff : m.Agrees n ↔ m.red.places = n.red.places ∧ m.green.places = n.green.places ∧
    m.blue.places = n.blue.places ∧ m.alpha.places = n.alpha.places := by
  simp [Agrees, ← place_eq_iff, Row.places_eq_iff, toList, rows, Row.toList, and_assoc]

theorem isFinite_iff : m.IsFinite ↔
    m.red.IsFinite ∧ m.green.IsFinite ∧ m.blue.IsFinite ∧ m.alpha.IsFinite := by
  simp [IsFinite, Row.isFinite_iff, toList, rows, Row.toList, and_assoc]

theorem Agrees.equals (h : m.Agrees n) (finite : n.IsFinite) : m.equals n = true := by
  rw [ColorMatrix.equals, List.all_eq_true]
  rintro ⟨x, y⟩ pair
  rcases (List.forall₂_iff_zip.mp h).2 pair with same | ⟨-, rfl⟩
  · exact same
  · exact absurd (finite nan (List.of_mem_zip pair).2) Bool.false_ne_true

section Unit

/-- A sum of which a row of the identity picks one term. -/
theorem place_picked (hx : x.isFinite = true) (hy : y.isFinite = true) (hz : z.isFinite = true)
    (hw : w.isFinite = true) :
    (1 * x + 0 * y + 0 * z + 0 * w).place = x.place ∧
      (0 * x + 1 * y + 0 * z + 0 * w).place = y.place ∧
      (0 * x + 0 * y + 1 * z + 0 * w).place = z.place ∧
      (0 * x + 0 * y + 0 * z + 1 * w).place = w.place := by
  have first := place_zero_mul place_zero hx
  have second := place_zero_mul place_zero hy
  have third := place_zero_mul place_zero hz
  have fourth := place_zero_mul place_zero hw
  refine ⟨?_, ?_, ?_, place_passed hx hy hz⟩
  · rw [place_add_zero fourth, place_add_zero third, place_add_zero second, place_one_mul]
  · rw [place_add_zero fourth, place_add_zero third, place_zero_add first, place_one_mul]
  · rw [place_add_zero fourth, place_zero_add ((place_zero_add first).trans second), place_one_mul]

theorem agrees_concat_identity (h : m.IsFinite) : (concat m identity).Agrees m := by
  obtain ⟨red, green, blue, alpha⟩ := isFinite_iff.mp h
  exact agrees_iff.mpr ⟨Row.places_concat_identity red, Row.places_concat_identity green,
    Row.places_concat_identity blue, Row.places_concat_identity alpha⟩

theorem agrees_identity_concat (h : m.IsFinite) : (concat identity m).Agrees m := by
  simp only [isFinite_iff, Row.isFinite_iff] at h
  obtain ⟨⟨r₁, r₂, r₃, r₄, r₅⟩, ⟨g₁, g₂, g₃, g₄, g₅⟩, ⟨b₁, b₂, b₃, b₄, b₅⟩, a₁, a₂, a₃, a₄, a₅⟩ := h
  obtain ⟨red₁, green₁, blue₁, alpha₁⟩ := place_picked r₁ g₁ b₁ a₁
  obtain ⟨red₂, green₂, blue₂, alpha₂⟩ := place_picked r₂ g₂ b₂ a₂
  obtain ⟨red₃, green₃, blue₃, alpha₃⟩ := place_picked r₃ g₃ b₃ a₃
  obtain ⟨red₄, green₄, blue₄, alpha₄⟩ := place_picked r₄ g₄ b₄ a₄
  obtain ⟨red₅, green₅, blue₅, alpha₅⟩ := place_picked r₅ g₅ b₅ a₅
  have offset {v : Single} : (v + 0).place = v.place := place_add_zero place_zero
  exact agrees_iff.mpr ⟨Row.places_eq_iff.mpr ⟨red₁, red₂, red₃, red₄, offset.trans red₅⟩,
    Row.places_eq_iff.mpr ⟨green₁, green₂, green₃, green₄, offset.trans green₅⟩,
    Row.places_eq_iff.mpr ⟨blue₁, blue₂, blue₃, blue₄, offset.trans blue₅⟩,
    Row.places_eq_iff.mpr ⟨alpha₁, alpha₂, alpha₃, alpha₄, offset.trans alpha₅⟩⟩

end Unit

section Stages

theorem Row.places_concat_congr (h : m.Agrees n) (r : Row Single) :
    (r.concat m).places = (r.concat n).places := by
  have column {w x y z w' x' y' z' : Single} (hw : w.place = w'.place) (hx : x.place = x'.place)
      (hy : y.place = y'.place) (hz : z.place = z'.place) :
      (r.red * w + r.green * x + r.blue * y + r.alpha * z).place =
        (r.red * w' + r.green * x' + r.blue * y' + r.alpha * z').place :=
    place_add_congr (place_add_congr (place_add_congr (place_mul_congr rfl hw)
      (place_mul_congr rfl hx)) (place_mul_congr rfl hy)) (place_mul_congr rfl hz)
  simp only [agrees_iff, Row.places_eq_iff] at h
  obtain ⟨⟨r₁, r₂, r₃, r₄, r₅⟩, ⟨g₁, g₂, g₃, g₄, g₅⟩, ⟨b₁, b₂, b₃, b₄, b₅⟩, a₁, a₂, a₃, a₄, a₅⟩ := h
  exact Row.places_eq_iff.mpr ⟨column r₁ g₁ b₁ a₁, column r₂ g₂ b₂ a₂, column r₃ g₃ b₃ a₃,
    column r₄ g₄ b₄ a₄, place_add_congr_left (column r₅ g₅ b₅ a₅) _⟩

/-- A further stage keeps agreement, also where it overflows. -/
theorem Agrees.followedBy (h : m.Agrees n) (next : ColorMatrix Single) :
    (m.followedBy next).Agrees (n.followedBy next) :=
  agrees_iff.mpr ⟨Row.places_concat_congr h _, Row.places_concat_congr h _,
    Row.places_concat_congr h _, Row.places_concat_congr h _⟩

theorem isFinite_saturation {factor : Single} (finite : factor.isFinite = true) :
    (saturation factor).IsFinite := by
  obtain ⟨red, green, blue⟩ := colorsFinite_saturation finite
  have alpha : (Row.keepAlpha : Row Single).IsFinite := by decide
  exact isFinite_iff.mpr ⟨red, green, blue, alpha⟩

end Stages

section Pixels

theorem pixel_identity (r g b a : UInt8) :
    (identity : ColorMatrix Single).pixel r g b a = [r, g, b, a] := by
  obtain ⟨red, green, blue, alpha⟩ := place_picked (isFinite_ofNat r.toNat_lt)
    (isFinite_ofNat g.toNat_lt) (isFinite_ofNat b.toNat_lt) (isFinite_ofNat a.toNat_lt)
  have byte {v : Single} {c : UInt8} (h : v.place = (ofNat c.toNat : Single).place) :
      (v + 0).toByte = c := by
    rw [toByte_congr ((place_add_zero place_zero).trans h), toByte_ofNat c.toNat_lt,
      UInt8.ofNat_toNat]
  simp only [pixel, apply, Row.apply, identity, Row.keepAlpha]
  rw [byte red, byte green, byte blue, byte alpha]

theorem applyPixels_identity (pixels : List UInt8) :
    (identity : ColorMatrix Single).applyPixels pixels = pixels := by
  fun_induction applyPixels identity pixels with
  | case1 r g b a rest ih => rw [pixel_identity, ih]; rfl
  | case2 rest few => rfl

end Pixels

end ColorMatrix

end PhotoCapture
