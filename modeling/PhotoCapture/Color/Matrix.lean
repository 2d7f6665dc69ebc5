namespace PhotoCapture

/-- The four channels of a color, on the scale from 0 to 255. -/
structure Rgba (α : Type) where
  red : α
  green : α
  blue : α
  alpha : α
deriving DecidableEq

namespace ColorMatrix

structure Row (α : Type) where
  red : α
  green : α
  blue : α
  alpha : α
  offset : α
deriving DecidableEq

end ColorMatrix

/-- An affine map of colors, over any scalar: one definition is evaluated in rounded arithmetic and
read as exact algebra. -/
structure ColorMatrix (α : Type) where
  red : ColorMatrix.Row α
  green : ColorMatrix.Row α
  blue : ColorMatrix.Row α
  alpha : ColorMatrix.Row α
deriving DecidableEq

namespace ColorMatrix

variable {α : Type}

def Row.toList (r : Row α) : List α := [r.red, r.green, r.blue, r.alpha, r.offset]

def rows (m : ColorMatrix α) : List (Row α) := [m.red, m.green, m.blue, m.alpha]

def toList (m : ColorMatrix α) : List α := m.rows.flatMap Row.toList

def ofList? : List α → Option (ColorMatrix α)
  | [a, b, c, d, e, f, g, h, i, j, k, l, m, n, o, p, q, r, s, t] =>
    some ⟨⟨a, b, c, d, e⟩, ⟨f, g, h, i, j⟩, ⟨k, l, m, n, o⟩, ⟨p, q, r, s, t⟩⟩
  | _ => none

section Affine

variable [Add α] [Mul α]

/-- One channel of the result. Every sum is taken from left to right. -/
def Row.apply (r : Row α) (x : Rgba α) : α :=
  r.red * x.red + r.green * x.green + r.blue * x.blue + r.alpha * x.alpha + r.offset

def apply (m : ColorMatrix α) (x : Rgba α) : Rgba α :=
  ⟨m.red.apply x, m.green.apply x, m.blue.apply x, m.alpha.apply x⟩

def Row.concat (r : Row α) (inner : ColorMatrix α) : Row α where
  red := r.red * inner.red.red + r.green * inner.green.red + r.blue * inner.blue.red +
    r.alpha * inner.alpha.red
  green := r.red * inner.red.green + r.green * inner.green.green + r.blue * inner.blue.green +
    r.alpha * inner.alpha.green
  blue := r.red * inner.red.blue + r.green * inner.green.blue + r.blue * inner.blue.blue +
    r.alpha * inner.alpha.blue
  alpha := r.red * inner.red.alpha + r.green * inner.green.alpha + r.blue * inner.blue.alpha +
    r.alpha * inner.alpha.alpha
  offset := r.red * inner.red.offset + r.green * inner.green.offset +
    r.blue * inner.blue.offset + r.alpha * inner.alpha.offset + r.offset

/-- The map that applies `inner` first and then `outer`. -/
def concat (outer inner : ColorMatrix α) : ColorMatrix α :=
  ⟨outer.red.concat inner, outer.green.concat inner, outer.blue.concat inner,
    outer.alpha.concat inner⟩

def followedBy (m next : ColorMatrix α) : ColorMatrix α := concat next m

def precededBy (m first : ColorMatrix α) : ColorMatrix α := concat m first

end Affine

section Stages

variable [Zero α] [One α]

def Row.keepAlpha : Row α := ⟨0, 0, 0, 1, 0⟩

def identity : ColorMatrix α :=
  ⟨⟨1, 0, 0, 0, 0⟩, ⟨0, 1, 0, 0, 0⟩, ⟨0, 0, 1, 0, 0⟩, Row.keepAlpha⟩

def scaleTranslate (scale offset : α) : ColorMatrix α :=
  ⟨⟨scale, 0, 0, 0, offset⟩, ⟨0, scale, 0, 0, offset⟩, ⟨0, 0, scale, 0, offset⟩, Row.keepAlpha⟩

def ofRgbRows (a b c d e f g h i : α) : ColorMatrix α :=
  ⟨⟨a, b, c, 0, 0⟩, ⟨d, e, f, 0, 0⟩, ⟨g, h, i, 0, 0⟩, Row.keepAlpha⟩

def brightness (factor : α) : ColorMatrix α := scaleTranslate factor 0

variable [OfScientific α]

/-- The weights of the colors in the luma of a color. -/
def lumaRed : α := 0.213

def lumaGreen : α := 0.715

def lumaBlue : α := 0.072

def sepia : ColorMatrix α :=
  ofRgbRows 0.393 0.769 0.189 0.349 0.686 0.168 0.272 0.534 0.131

variable [Add α] [Sub α] [Mul α] [Neg α]

/-- Saturation about the luma: a factor of one changes nothing, a factor of zero leaves grey. -/
def saturation (factor : α) : ColorMatrix α :=
  let rest := 1.0 - factor
  let r := lumaRed * rest
  let g := lumaGreen * rest
  let b := lumaBlue * rest
  ⟨⟨r + factor, g, b, 0, 0⟩, ⟨r, g + factor, b, 0, 0⟩, ⟨r, g, b + factor, 0, 0⟩, Row.keepAlpha⟩

/-- Contrast about the middle of the channel scale. -/
def contrast (factor : α) : ColorMatrix α :=
  scaleTranslate factor ((-0.5 * factor + 0.5) * 255.0)

end Stages

end ColorMatrix

end PhotoCapture
