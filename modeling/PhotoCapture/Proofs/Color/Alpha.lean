import PhotoCapture.Proofs.Color.Single

namespace PhotoCapture.ColorMatrix

open Binary

variable {w x y z : Single} {r : Row Single} {m next : ColorMatrix Single} {color : Rgba Single}

/-- The row is the one that passes alpha through, up to the sign of zeros. -/
def Row.KeepsAlpha (r : Row Single) : Prop := r.equals Row.keepAlpha = true

instance (r : Row Single) : Decidable r.KeepsAlpha := inferInstanceAs (Decidable (_ = true))

/-- The row has a coefficient that is not a number. -/
def Row.Spoilt (r : Row Single) : Prop := nan ∈ r.toList

theorem Row.keepsAlpha_iff : r.KeepsAlpha ↔ r.red.place = some 0 ∧ r.green.place = some 0 ∧
    r.blue.place = some 0 ∧ r.alpha.place = (1 : Single).place ∧ r.offset.place = some 0 := by
  have one : (∃ a, r.alpha.place = some a ∧ (1 : Single).place = some a) ↔
      r.alpha.place = (1 : Single).place :=
    ⟨fun ⟨_, same, one⟩ => same.trans one.symm, fun same => ⟨_, same, rfl⟩⟩
  simp [Row.KeepsAlpha, Row.equals, Row.toList, Row.keepAlpha, equals_iff, place_zero, one]

theorem Row.KeepsAlpha.not_spoilt (h : r.KeepsAlpha) : ¬ r.Spoilt := by
  obtain ⟨red, green, blue, alpha, offset⟩ := Row.keepsAlpha_iff.mp h
  have number {x : Single} {a : Int} (hx : x.place = some a) : nan ≠ x := by
    rintro rfl
    simp [place] at hx
  simp [Row.Spoilt, Row.toList, number red, number green, number blue, number alpha, number offset]

section Stage

theorem place_passed (hx : x.isFinite = true) (hy : y.isFinite = true) (hz : z.isFinite = true) :
    (0 * x + 0 * y + 0 * z + 1 * w).place = w.place := by
  rw [place_sum_last (place_zero_mul place_zero hx) (place_zero_mul place_zero hy)
    (place_zero_mul place_zero hz), place_one_mul]

theorem finite_of_passed (h : nan ≠ 0 * x + 0 * y + 0 * z + 1 * w) :
    x.isFinite = true ∧ y.isFinite = true ∧ z.isFinite = true ∧ nan ≠ w := by
  have lost {x : Single} (hx : ¬ x.isFinite = true) : 0 * x = nan :=
    zero_mul_of_not_finite place_zero (Bool.eq_false_iff.mpr hx)
  refine ⟨?_, ?_, ?_, ?_⟩
  · by_contra hx
    exact h (nan_sum (Or.inl (lost hx))).symm
  · by_contra hy
    exact h (nan_sum (Or.inr (Or.inl (lost hy)))).symm
  · by_contra hz
    exact h (nan_sum (Or.inr (Or.inr (Or.inl (lost hz))))).symm
  · rintro rfl
    exact h (nan_sum (Or.inr (Or.inr (Or.inr (mul_nan 1))))).symm

theorem keepsAlpha_concat (keeps : m.alpha.KeepsAlpha) (finite : m.ColorsFinite) :
    (Row.keepAlpha.concat m).KeepsAlpha := by
  simp only [ColorsFinite, Row.isFinite_iff] at finite
  obtain ⟨⟨r₁, r₂, r₃, r₄, r₅⟩, ⟨g₁, g₂, g₃, g₄, g₅⟩, b₁, b₂, b₃, b₄, b₅⟩ := finite
  obtain ⟨red, green, blue, alpha, offset⟩ := Row.keepsAlpha_iff.mp keeps
  exact Row.keepsAlpha_iff.mpr ⟨(place_passed r₁ g₁ b₁).trans red,
    (place_passed r₂ g₂ b₂).trans green, (place_passed r₃ g₃ b₃).trans blue,
    (place_passed r₄ g₄ b₄).trans alpha,
    (place_add_zero place_zero).trans ((place_passed r₅ g₅ b₅).trans offset)⟩

/-- Where the last row is all numbers behind a stage, it was so before it, and the colors before
the stage were finite. -/
theorem clean_of_concat (h : ¬ (Row.keepAlpha.concat m).Spoilt) :
    m.ColorsFinite ∧ ¬ m.alpha.Spoilt := by
  simp only [Row.Spoilt, Row.concat, Row.keepAlpha, Row.toList, List.mem_cons, List.not_mem_nil,
    or_false, not_or] at h
  obtain ⟨red, green, blue, alpha, offset⟩ := h
  obtain ⟨r₁, g₁, b₁, last₁⟩ := finite_of_passed red
  obtain ⟨r₂, g₂, b₂, last₂⟩ := finite_of_passed green
  obtain ⟨r₃, g₃, b₃, last₃⟩ := finite_of_passed blue
  obtain ⟨r₄, g₄, b₄, last₄⟩ := finite_of_passed alpha
  obtain ⟨r₅, g₅, b₅, last₅⟩ := finite_of_passed fun hn => offset (hn ▸ (nan_add 0).symm)
  simp only [ColorsFinite, Row.isFinite_iff, Row.Spoilt, Row.toList, List.mem_cons,
    List.not_mem_nil, or_false, not_or]
  exact ⟨⟨⟨r₁, r₂, r₃, r₄, r₅⟩, ⟨g₁, g₂, g₃, g₄, g₅⟩, b₁, b₂, b₃, b₄, b₅⟩,
    last₁, last₂, last₃, last₄, last₅⟩

end Stage

section Pixels

theorem Row.place_apply (h : r.KeepsAlpha) (red : color.red.isFinite = true)
    (green : color.green.isFinite = true) (blue : color.blue.isFinite = true) :
    (r.apply color).place = color.alpha.place := by
  obtain ⟨r₀, g₀, b₀, alpha, offset⟩ := Row.keepsAlpha_iff.mp h
  have one : r.alpha = 1 := eq_of_place_eq alpha (by rw [alpha]; decide)
  rw [Row.apply, place_add_zero offset, place_sum_last (place_zero_mul r₀ red)
    (place_zero_mul g₀ green) (place_zero_mul b₀ blue), one, place_one_mul]

theorem Row.apply_spoilt (h : r.Spoilt) (color : Rgba Single) : r.apply color = nan := by
  simp only [Row.Spoilt, Row.toList, List.mem_cons, List.not_mem_nil, or_false] at h
  rcases h with h | h | h | h | h <;> simp [Row.apply, ← h]

theorem getElem?_applyPixels {change : UInt8 → UInt8}
    (h : ∀ r g b a : UInt8, (m.alpha.apply ⟨.ofNat r.toNat, .ofNat g.toNat, .ofNat b.toNat,
      .ofNat a.toNat⟩).toByte = change a)
    (pixels : List UInt8) {i : Nat} (hi : i % 4 = 3) :
    (m.applyPixels pixels)[i]? = pixels[i]?.map change := by
  obtain ⟨j, rfl⟩ : ∃ j, i = 4 * j + 3 := ⟨i / 4, by omega⟩
  rcases Nat.lt_or_ge (4 * j + 3) pixels.length with whole | beyond
  · obtain ⟨r, g, b, a, bytes⟩ := exists_pixel m pixels whole
    obtain ⟨before, after⟩ := bytes 3 (by omega)
    rw [before, after]
    simp [pixel, apply, h]
  · rw [List.getElem?_eq_none beyond, List.getElem?_eq_none (by rwa [length_applyPixels]),
      Option.map_none]

theorem getElem?_applyPixels_of_keepsAlpha (h : m.alpha.KeepsAlpha) (pixels : List UInt8) {i : Nat}
    (hi : i % 4 = 3) : (m.applyPixels pixels)[i]? = pixels[i]? := by
  have kept (r g b a : UInt8) : (m.alpha.apply ⟨.ofNat r.toNat, .ofNat g.toNat, .ofNat b.toNat,
      .ofNat a.toNat⟩).toByte = id a := by
    rw [toByte_congr (Row.place_apply h (isFinite_ofNat r.toNat_lt) (isFinite_ofNat g.toNat_lt)
      (isFinite_ofNat b.toNat_lt)), toByte_ofNat a.toNat_lt, UInt8.ofNat_toNat, id]
  rw [getElem?_applyPixels kept pixels hi, Option.map_id, id]

theorem getElem?_applyPixels_of_spoilt (h : m.alpha.Spoilt) (pixels : List UInt8) {i : Nat}
    (hi : i % 4 = 3) : (m.applyPixels pixels)[i]? = pixels[i]?.map fun _ => 0 :=
  getElem?_applyPixels (fun _ _ _ _ => by rw [Row.apply_spoilt h]; rfl) pixels hi

end Pixels

end PhotoCapture.ColorMatrix
