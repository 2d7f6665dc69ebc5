import PhotoCapture.Control.Basic

namespace PhotoCapture.Camera.Scene

/-- Three colour channels, from zero to one. -/
structure Color where
  red : Single
  green : Single
  blue : Single
deriving DecidableEq

/-- The scene behind the camera. -/
def landscape (u v : Single) : Color :=
  let sky := 1 - v
  ⟨0.35 + 0.55 * u, 0.25 + 0.5 * sky, 0.2 + 0.6 * sky * (1 - u)⟩

/-- The scene before the camera. -/
def vignette (u v : Single) : Color :=
  let du := u - 0.5
  let dv := v - 0.5
  let falloff := (1 - 2.0 * (du * du + dv * dv).sqrt).max 0
  ⟨0.2 + 0.5 * falloff, 0.3 + 0.4 * falloff, 0.45 + 0.5 * falloff⟩

def color : Facing → Single → Single → Color
  | .back => landscape
  | .front => vignette

/-- The place of a pixel along a side of so many pixels, seen enlarged from the middle. -/
def coordinate (magnification : Single) (size pixel : Nat) : Single :=
  let full : Single := .ofNat size
  let middle := full / 2.0
  (middle + (.ofNat pixel - middle) / magnification) / full

def shade (light channel : Single) : UInt8 := (channel * light * 255.0).toByte

def pixel (facing : Facing) (light u v : Single) : List UInt8 :=
  let c := color facing u v
  [shade light c.red, shade light c.green, shade light c.blue]

/-- The rows of a picture of the scene, each with the bytes of its pixels. -/
def picture (facing : Facing) (light magnification : Single) (width height : Nat) :
    List (List UInt8) :=
  let columns := (List.range width).map (coordinate magnification width)
  (List.range height).map fun y =>
    let v := coordinate magnification height y
    columns.flatMap fun u => pixel facing light u v

end PhotoCapture.Camera.Scene
