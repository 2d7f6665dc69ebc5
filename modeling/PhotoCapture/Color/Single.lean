import PhotoCapture.Color.Matrix
import PhotoCapture.Decimal.Layout

namespace PhotoCapture.ColorMatrix

def near (tolerance : Single) (m n : ColorMatrix Single) : Bool :=
  (m.toList.zip n.toList).all fun (a, b) => (a - b).abs.ble tolerance

/-- Whether a matrix is the identity up to one millionth. -/
def isIdentity (m : ColorMatrix Single) : Bool := near 1e-6 m identity

def equals (m n : ColorMatrix Single) : Bool :=
  (m.toList.zip n.toList).all fun (a, b) => a.equals b

/-- A row of the printed table: four columns of nine places and a last one of ten. -/
def Row.text (r : Row Single) : List Char :=
  let column (least : Nat) (x : Single) := Numeral.padStart ' ' least (x.fixedText 4)
  '[' :: column 9 r.red ++ ' ' :: column 9 r.green ++ ' ' :: column 9 r.blue ++
    ' ' :: column 9 r.alpha ++ ' ' :: column 10 r.offset ++ [']', '\n']

def text (m : ColorMatrix Single) : String := String.ofList (m.rows.flatMap Row.text)

/-- The four bytes of a pixel after a matrix, each from the four bytes before it. -/
def pixel (m : ColorMatrix Single) (r g b a : UInt8) : List UInt8 :=
  let x := m.apply ⟨.ofNat r.toNat, .ofNat g.toNat, .ofNat b.toNat, .ofNat a.toNat⟩
  [x.red.toByte, x.green.toByte, x.blue.toByte, x.alpha.toByte]

/-- Packed pixels after a matrix. Bytes that do not fill a pixel stay as they are. -/
def applyPixels (m : ColorMatrix Single) : List UInt8 → List UInt8
  | r :: g :: b :: a :: rest => m.pixel r g b a ++ m.applyPixels rest
  | rest => rest

end PhotoCapture.ColorMatrix
