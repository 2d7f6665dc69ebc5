import PhotoCapture.Proofs.Binary.Bounds
import PhotoCapture.Proofs.Color.Saturation

namespace PhotoCapture.ColorMatrix

open Binary

variable {a b c d w x y z : Single} {r : Row Single} {m outer inner : ColorMatrix Single}
  {j k : Nat}

/-- All coefficients are at most `2 ^ k` in magnitude. -/
structure Row.IsWithin (k : Nat) (r : Row Single) : Prop where
  red : Within k r.red
  green : Within k r.green
  blue : Within k r.blue
  alpha : Within k r.alpha
  offset : Within k r.offset

structure IsWithin (k : Nat) (m : ColorMatrix Single) : Prop where
  red : m.red.IsWithin k
  green : m.green.IsWithin k
  blue : m.blue.IsWithin k
  alpha : m.alpha.IsWithin k

theorem Row.IsWithin.isFinite (h : r.IsWithin k) : r.IsFinite :=
  Row.isFinite_iff.mpr
    ⟨h.red.finite, h.green.finite, h.blue.finite, h.alpha.finite, h.offset.finite⟩

theorem IsWithin.colorsFinite (h : m.IsWithin k) : m.ColorsFinite :=
  ⟨h.red.isFinite, h.green.isFinite, h.blue.isFinite⟩

section Concat

theorem within_products (ha : Within j a) (hb : Within j b) (hc : Within j c) (hd : Within j d)
    (hw : Within k w) (hx : Within k x) (hy : Within k y) (hz : Within k z) (h : j + k + 3 < 128) :
    Within (j + k + 3) (a * w + b * x + c * y + d * z) := by
  have two := (ha.mul hw (by omega)).add (hb.mul hx (by omega)) (by omega)
  have three := two.add ((hc.mul hy (by omega)).mono (Nat.le_succ _)) (by omega)
  exact three.add ((hd.mul hz (by omega)).mono (Nat.le_add_right _ 2)) (by omega)

theorem Row.IsWithin.concat (hr : r.IsWithin j) (hm : m.IsWithin k) (h : j + k + 4 < 128) :
    (r.concat m).IsWithin (j + k + 4) := by
  have column {w x y z : Single} (hw : Within k w) (hx : Within k x) (hy : Within k y)
      (hz : Within k z) :
      Within (j + k + 3) (r.red * w + r.green * x + r.blue * y + r.alpha * z) :=
    within_products hr.red hr.green hr.blue hr.alpha hw hx hy hz (by omega)
  have wider {x : Single} (hx : Within (j + k + 3) x) : Within (j + k + 4) x :=
    hx.mono (Nat.le_succ _)
  have offset := column hm.red.offset hm.green.offset hm.blue.offset hm.alpha.offset
  exact
    { red := wider (column hm.red.red hm.green.red hm.blue.red hm.alpha.red)
      green := wider (column hm.red.green hm.green.green hm.blue.green hm.alpha.green)
      blue := wider (column hm.red.blue hm.green.blue hm.blue.blue hm.alpha.blue)
      alpha := wider (column hm.red.alpha hm.green.alpha hm.blue.alpha hm.alpha.alpha)
      offset := offset.add (hr.offset.mono (by omega)) (by omega) }

theorem IsWithin.concat (ho : outer.IsWithin j) (hi : inner.IsWithin k) (h : j + k + 4 < 128) :
    (concat outer inner).IsWithin (j + k + 4) :=
  ⟨ho.red.concat hi h, ho.green.concat hi h, ho.blue.concat hi h, ho.alpha.concat hi h⟩

end Concat

section Stages

theorem within_zero (k : Nat) : Within k 0 :=
  ⟨isFinite_zero, by rw [units_zero, abs_zero]; positivity⟩

theorem within_one (k : Nat) : Within k 1 :=
  Within.mono (j := 0) ⟨by decide, by decide +kernel⟩ (Nat.zero_le k)

theorem within_keepAlpha (k : Nat) : (Row.keepAlpha : Row Single).IsWithin k :=
  ⟨within_zero k, within_zero k, within_zero k, within_one k, within_zero k⟩

theorem within_identity : (identity : ColorMatrix Single).IsWithin 0 where
  red := ⟨within_one 0, within_zero 0, within_zero 0, within_zero 0, within_zero 0⟩
  green := ⟨within_zero 0, within_one 0, within_zero 0, within_zero 0, within_zero 0⟩
  blue := ⟨within_zero 0, within_zero 0, within_one 0, within_zero 0, within_zero 0⟩
  alpha := within_keepAlpha 0

variable {factor scale offset : Single}

theorem within_scaleTranslate (hs : Within k scale) (ho : Within k offset) :
    (scaleTranslate scale offset).IsWithin k where
  red := ⟨hs, within_zero k, within_zero k, within_zero k, ho⟩
  green := ⟨within_zero k, hs, within_zero k, within_zero k, ho⟩
  blue := ⟨within_zero k, within_zero k, hs, within_zero k, ho⟩
  alpha := within_keepAlpha k

theorem within_contrast (h : Within k factor) (hk : k < 119) :
    (contrast factor).IsWithin (k + 9) := by
  have half : Within 0 (0.5 : Single) := ⟨by decide +kernel, by decide +kernel⟩
  have channel : Within 8 (255.0 : Single) := ⟨by decide +kernel, by decide +kernel⟩
  have scaled : Within k (-0.5 * factor) := by
    simpa only [Nat.zero_add] using half.neg.mul h (by omega)
  have middle := (scaled.add (half.mono (Nat.zero_le k)) (by omega)).mul channel (by omega)
  exact within_scaleTranslate (h.mono (by omega)) middle

theorem IsWeight.within {weight : Single} (w : IsWeight weight) : Within 0 weight := by
  have one : (1 : Single).units = 2 ^ (149 + 0) := by decide +kernel
  exact ⟨w.finite, w.units_small.trans_eq one⟩

theorem within_saturation (h : Within k factor) (hk : k < 126) :
    (saturation factor).IsWithin (k + 2) := by
  have rest : Within (k + 1) (1.0 - factor) := by
    rw [single_one]
    exact (within_one k).sub h (by omega)
  have share {weight : Single} (hw : Within 0 weight) :
      Within (k + 1) (weight * (1.0 - factor)) := by
    simpa only [Nat.zero_add] using hw.mul rest (by omega)
  have red := share isWeight_lumaRed.within
  have green := share isWeight_lumaGreen.within
  have blue := share isWeight_lumaBlue.within
  have own := h.mono (Nat.le_succ k)
  have zero := within_zero (k + 2)
  have wider {x : Single} (hx : Within (k + 1) x) : Within (k + 2) x := hx.mono (Nat.le_succ _)
  exact
    { red := ⟨red.add own (by omega), wider green, wider blue, zero, zero⟩
      green := ⟨wider red, green.add own (by omega), wider blue, zero, zero⟩
      blue := ⟨wider red, wider green, blue.add own (by omega), zero, zero⟩
      alpha := within_keepAlpha (k + 2) }

end Stages

end PhotoCapture.ColorMatrix
