import PhotoCapture.Camera.Basic
import PhotoCapture.Camera.Scene
import PhotoCapture.Config.Basic
import PhotoCapture.Decimal.Layout

namespace PhotoCapture.Camera

/-- A virtual camera, with the number of pictures that it has taken. The number grows for ever; that
it starts anew after `2 ^ 64` pictures is left out. -/
structure Virtual where
  sensor : Sensor
  state : State := {}
  captures : Nat := 0
deriving DecidableEq

namespace Virtual

def numeral (n : Nat) : String := String.ofList (Numeral.digits n)

def emptySensor (sensor : Sensor) : Error :=
  .bindFailed ("invalid sensor size " ++ numeral sensor.width.toNat ++ "x" ++
    numeral sensor.height.toNat)

def zoomOutside (x : Single) : Error :=
  .controlFailed ("linear zoom " ++ x.text .plain ++ " outside [0, 1]")

/-- The camera after a command. A command that is refused changes nothing. -/
def control : Control → Virtual → Reply × Virtual
  | .unbindAll, camera => (.done, { camera with state := {} })
  | .bind facing, camera =>
    if camera.sensor.width = 0 ∨ camera.sensor.height = 0 then
      (.refused (emptySensor camera.sensor), camera)
    else (.done, { camera with state := { camera.state with facing := some facing } })
  | .torch on, camera =>
    if camera.state.facing.isNone then (.refused .notBound, camera)
    else (.done, { camera with state := { camera.state with torch := on } })
  | .linearZoom x, camera =>
    if camera.state.facing.isNone then (.refused .notBound, camera)
    else if 0 ≤ x ∧ x ≤ 1 then
      (.done, { camera with state := { camera.state with linearZoom := x } })
    else (.refused (zoomOutside x), camera)

def light (state : State) : Single := if state.torch then 1.35 else 1

def magnification (linearZoom : Single) : Single := 1 + 3.0 * linearZoom

def size (camera : Virtual) : Nat × Nat :=
  (max camera.sensor.width.toNat 1, max camera.sensor.height.toNat 1)

/-- What the camera sees: the rows of a picture. -/
def render (camera : Virtual) : Except Error (List (List UInt8)) :=
  match camera.state.facing with
  | none => .error .notBound
  | some facing =>
    .ok (Scene.picture facing (light camera.state) (magnification camera.state.linearZoom)
      camera.size.1 camera.size.2)

def tooLarge (width height : Nat) : Error :=
  .captureFailed ("JPEG encoding failed: Format error encoding Jpeg:\nInvalid image size (" ++
    numeral width ++ " x " ++ numeral height ++
    ") to encode as JPEG: width and height must be >= 1 and <= 65535")

def photo (camera : Virtual) : Except Error Photo.Header :=
  let (width, height) := camera.size
  if camera.state.facing.isNone then .error .notBound
  else if Photo.longestSide < width ∨ Photo.longestSide < height then
    .error (tooLarge width height)
  else .ok (.ofSize width height camera.sensor.quality.toNat)

/-- Writes the header of a picture. A picture with a side of more than 65535 pixels is refused as
too large, also one so large that no memory holds it: that the camera breaks off when it is to
render such a picture is left out. -/
def capture (path : String) (camera : Virtual) (files : Files) : Reply × Virtual × Files :=
  match camera.photo with
  | .error error => (.refused error, camera, files)
  | .ok header =>
    match files.write path (.photo header) with
    | .error problem =>
      (.refused (.captureFailed ("failed to write photo: " ++ problem.message)), camera, files)
    | .ok files => (.done, { camera with captures := camera.captures + 1 }, files)

def name : String := "virtual"

def device : Device Virtual := ⟨Virtual.state, control, capture⟩

end Virtual

end PhotoCapture.Camera
