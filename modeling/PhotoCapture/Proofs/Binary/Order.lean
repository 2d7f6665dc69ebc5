import PhotoCapture.Binary.Basic

namespace PhotoCapture.Binary

variable {f : Format} {x y z low high : Binary f}

theorem le_iff : x ≤ y ↔ ∃ a b, x.place = some a ∧ y.place = some b ∧ a ≤ b := by
  change ble x y = true ↔ _
  unfold ble
  cases x.place with
  | none => simp
  | some a => cases y.place with
    | none => simp
    | some b => simp

theorem lt_iff : x < y ↔ ∃ a b, x.place = some a ∧ y.place = some b ∧ a < b := by
  change blt x y = true ↔ _
  unfold blt
  cases x.place with
  | none => simp
  | some a => cases y.place with
    | none => simp
    | some b => simp

theorem exists_place (h : x.isNan = false) : ∃ a, x.place = some a := by
  cases x with
  | nan => simp [isNan] at h
  | number negative rank => exact ⟨_, rfl⟩

theorem clamp_between (number : x.isNan = false) (bounds : low ≤ high) :
    low ≤ x.clamp low high ∧ x.clamp low high ≤ high := by
  obtain ⟨a, ha⟩ := exists_place number
  obtain ⟨l, h, hl, hh, le⟩ := le_iff.mp bounds
  unfold clamp
  by_cases below : x < low
  · rw [if_pos below]
    exact ⟨le_iff.mpr ⟨l, l, hl, hl, by omega⟩, bounds⟩
  · have la : l ≤ a := Int.not_lt.mp fun hn => below (lt_iff.mpr ⟨a, l, ha, hl, hn⟩)
    rw [if_neg below]
    by_cases above : high < x
    · rw [if_pos above]
      exact ⟨bounds, le_iff.mpr ⟨h, h, hh, hh, by omega⟩⟩
    · have ah : a ≤ h := Int.not_lt.mp fun hn => above (lt_iff.mpr ⟨h, a, hh, ha, hn⟩)
      rw [if_neg above]
      exact ⟨le_iff.mpr ⟨l, a, hl, ha, la⟩, le_iff.mpr ⟨a, h, ha, hh, ah⟩⟩

theorem le_iff_of_places {a b : Int} (hx : x.place = some a) (hy : y.place = some b) :
    x ≤ y ↔ a ≤ b := by
  simp [le_iff, hx, hy]

theorem lt_iff_of_places {a b : Int} (hx : x.place = some a) (hy : y.place = some b) :
    x < y ↔ a < b := by
  simp [lt_iff, hx, hy]

theorem le_iff_of_place_left {a : Int} (hx : x.place = some a) :
    x ≤ y ↔ ∃ b, y.place = some b ∧ a ≤ b := by
  simp [le_iff, hx]

theorem le_iff_of_place_right {b : Int} (hy : y.place = some b) :
    x ≤ y ↔ ∃ a, x.place = some a ∧ a ≤ b := by
  simp [le_iff, hy]

protected theorem le_trans (first : x ≤ y) (second : y ≤ z) : x ≤ z := by
  obtain ⟨a, b, ha, hb, le⟩ := le_iff.mp first
  obtain ⟨c, hc, le'⟩ := (le_iff_of_place_left hb).mp second
  exact (le_iff_of_places ha hc).mpr (by omega)

protected theorem le_total (hx : x.isNan = false) (hy : y.isNan = false) : x ≤ y ∨ y ≤ x := by
  obtain ⟨a, ha⟩ := exists_place hx
  obtain ⟨b, hb⟩ := exists_place hy
  rw [le_iff_of_places ha hb, le_iff_of_places hb ha]
  omega

protected theorem lt_of_le_of_lt (first : x ≤ y) (second : y < z) : x < z := by
  obtain ⟨b, c, hb, hc, lt⟩ := lt_iff.mp second
  obtain ⟨a, ha, le⟩ := (le_iff_of_place_right hb).mp first
  exact (lt_iff_of_places ha hc).mpr (by omega)

theorem place_eq_of_le_of_le (h : x ≤ y) (h' : y ≤ x) : x.place = y.place := by
  obtain ⟨a, b, ha, hb, le⟩ := le_iff.mp h
  have le' := (le_iff_of_places hb ha).mp h'
  rw [ha, hb, Int.le_antisymm le le']

theorem isNan_of_place {a : Int} (h : x.place = some a) : x.isNan = false := by
  cases x with
  | nan => simp [place] at h
  | number negative rank => rfl

theorem place_clamp {a l t : Int} (hx : x.place = some a) (hl : low.place = some l)
    (ht : high.place = some t) :
    (x.clamp low high).place = some (if a < l then l else if t < a then t else a) := by
  simp only [clamp, lt_iff_of_places hx hl, lt_iff_of_places ht hx]
  split
  · exact hl
  · split
    · exact ht
    · exact hx

theorem clamp_le_clamp (bounds : low ≤ high) (h : x ≤ y) :
    x.clamp low high ≤ y.clamp low high := by
  obtain ⟨a, b, ha, hb, le⟩ := le_iff.mp h
  obtain ⟨l, t, hl, ht, le'⟩ := le_iff.mp bounds
  rw [le_iff_of_places (place_clamp ha hl ht) (place_clamp hb hl ht)]
  omega

/-- A number is known by its place, unless it is a zero. -/
theorem eq_of_place_eq (h : x.place = y.place) (nonzero : x.place ≠ some 0) : x = y := by
  cases x with
  | nan =>
    cases y with
    | nan => rfl
    | number negative rank => simp [place] at h
  | number n₁ r₁ =>
    cases y with
    | nan => simp [place] at h
    | number n₂ r₂ =>
      simp only [place, Option.some.injEq, ne_eq] at h nonzero
      cases n₁ <;> cases n₂ <;> simp only [Bool.false_eq_true, ↓reduceIte] at h nonzero
      · exact congrArg _ (Fin.ext (by omega))
      · omega
      · omega
      · exact congrArg _ (Fin.ext (by omega))

end PhotoCapture.Binary
