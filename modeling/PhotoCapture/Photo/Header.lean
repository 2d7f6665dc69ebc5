namespace PhotoCapture.Photo

/-- The brightness table of quality 50, in the zigzag order of a file. -/
def lumaTable : List Nat :=
  [16, 11, 12, 14, 12, 10, 16, 14, 13, 14, 18, 17, 16, 19, 24, 40,
    26, 24, 22, 22, 24, 49, 35, 37, 29, 40, 58, 51, 61, 60, 57, 51,
    56, 55, 64, 72, 92, 78, 64, 68, 87, 69, 55, 56, 80, 109, 81, 87,
    95, 98, 103, 104, 103, 62, 77, 113, 121, 112, 100, 120, 92, 101, 103, 99]

/-- The percentage by which a quality from 1 to 100 scales the table. -/
def scale (quality : Nat) : Nat := if quality < 50 then 5000 / quality else 200 - 2 * quality

/-- An entry of the table at a quality, from 1 to 255. -/
def quantizer (quality entry : Nat) : Nat :=
  max 1 (min 255 ((entry * scale quality + 50) / 100))

structure Header where
  width : Nat
  height : Nat
  luma : List Nat
deriving DecidableEq

def longestSide : Nat := 65535

/-- The header of a picture at a quality, which is brought into the range from 1 to 100. -/
def Header.ofSize (width height quality : Nat) : Header :=
  ⟨width, height, lumaTable.map (quantizer (max 1 (min 100 quality)))⟩

def twoBytes (n : Nat) : List UInt8 := [.ofNat (n / 256), .ofNat (n % 256)]

def segment (mark : UInt8) (content : List UInt8) : List UInt8 :=
  0xff :: mark :: twoBytes (content.length + 2) ++ content

/-- The bytes of a photo file that has this header and nothing else: the marks of its start and
its end, the brightness table, and the frame of three components. -/
def Header.bytes (header : Header) : List UInt8 :=
  let frame := 8 :: twoBytes header.height ++ twoBytes header.width ++
    [3, 1, 0x11, 0, 2, 0x11, 0, 3, 0x11, 0]
  [0xff, 0xd8] ++ segment 0xdb (0 :: header.luma.map UInt8.ofNat) ++ segment 0xc0 frame ++
    [0xff, 0xd9]

end PhotoCapture.Photo
