import PhotoCapture.Proofs.Color.Affine

namespace PhotoCapture.ColorMatrix

variable {K : Type} [CommRing K]

theorem Row.concat_concat (r : Row K) (middle inner : ColorMatrix K) :
    (r.concat middle).concat inner = r.concat (middle.concat inner) := by
  simp only [Row.concat, ColorMatrix.concat, Row.mk.injEq]
  refine ⟨?_, ?_, ?_, ?_, ?_⟩ <;> ring

theorem Row.concat_identity (r : Row K) : r.concat identity = r := by
  simp [Row.concat, identity, Row.keepAlpha]

theorem concat_assoc (outer middle inner : ColorMatrix K) :
    concat (concat outer middle) inner = concat outer (concat middle inner) := by
  calc concat (concat outer middle) inner
    _ = ⟨(outer.red.concat middle).concat inner, (outer.green.concat middle).concat inner,
          (outer.blue.concat middle).concat inner, (outer.alpha.concat middle).concat inner⟩ := rfl
    _ = concat outer (concat middle inner) := by simp only [Row.concat_concat]; rfl

theorem concat_identity (m : ColorMatrix K) : concat m identity = m := by
  simp only [concat, Row.concat_identity]

theorem identity_concat (m : ColorMatrix K) : concat identity m = m := by
  simp [concat, identity, Row.concat, Row.keepAlpha]

/-- A further map at one end of a matrix. -/
inductive Extension (α : Type) where
  | after (next : ColorMatrix α)
  | before (first : ColorMatrix α)

namespace Extension

def extend (m : ColorMatrix K) : Extension K → ColorMatrix K
  | after next => m.followedBy next
  | before first => m.precededBy first

variable {α : Type}

def next? : Extension α → Option (ColorMatrix α)
  | after next => some next
  | before _ => none

def first? : Extension α → Option (ColorMatrix α)
  | after _ => none
  | before first => some first

end Extension

/-- The matrix with further maps at its ends, one after another. -/
def extendAll (m : ColorMatrix K) (extensions : List (Extension K)) : ColorMatrix K :=
  extensions.foldl Extension.extend m

theorem apply_extendAll (m : ColorMatrix K) (extensions : List (Extension K)) (x : Rgba K) :
    (m.extendAll extensions).apply x =
      (extensions.filterMap Extension.next?).foldl (fun y next => next.apply y)
        (m.apply ((extensions.filterMap Extension.first?).foldr apply x)) := by
  induction extensions generalizing m with
  | nil => rfl
  | cons extension rest ih =>
    have later := ih (Extension.extend m extension)
    cases extension with
    | after next =>
      have here : (m.followedBy next).apply = fun y => next.apply (m.apply y) :=
        funext (apply_concat next m)
      exact later.trans (by rw [Extension.extend, here]; rfl)
    | before first =>
      have here : (m.precededBy first).apply = fun y => m.apply (first.apply y) :=
        funext (apply_concat m first)
      exact later.trans (by rw [Extension.extend, here]; rfl)

/-- Color matrices are a monoid that acts on colors, and extensions of a matrix act in the order in
which they stand around it. -/
theorem matrices_act_on_colors :
    (∀ a b c : ColorMatrix K, concat (concat a b) c = concat a (concat b c)) ∧
    (∀ a : ColorMatrix K, concat identity a = a ∧ concat a identity = a) ∧
    (∀ (a b : ColorMatrix K) (x : Rgba K), (concat a b).apply x = a.apply (b.apply x)) ∧
    ∀ (m : ColorMatrix K) (extensions : List (Extension K)) (x : Rgba K),
      (m.extendAll extensions).apply x =
        (extensions.filterMap Extension.next?).foldl (fun y next => next.apply y)
          (m.apply ((extensions.filterMap Extension.first?).foldr apply x)) :=
  ⟨concat_assoc, fun a => ⟨identity_concat a, concat_identity a⟩, apply_concat, apply_extendAll⟩

end PhotoCapture.ColorMatrix
