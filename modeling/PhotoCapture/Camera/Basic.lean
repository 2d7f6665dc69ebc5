import PhotoCapture.Camera.Error
import PhotoCapture.Control.Basic
import PhotoCapture.Files.Access

namespace PhotoCapture.Camera

structure State where
  facing : Option Facing := none
  torch : Bool := false
  linearZoom : Single := 0
deriving DecidableEq

inductive Control where
  | unbindAll
  | bind (facing : Facing)
  | torch (on : Bool)
  | linearZoom (x : Single)
deriving DecidableEq

inductive Command where
  | control (c : Control)
  | capture (path : String)
deriving DecidableEq

inductive Reply where
  | done
  | refused (error : Error)
  /-- The work on the command broke off. -/
  | crashed (message : String)
deriving DecidableEq

/-- A kind of camera whose inner state is of type `σ`. Only taking a picture touches files. -/
structure Device (σ : Type) where
  state : σ → State
  control : Control → σ → Reply × σ
  capture : String → σ → Files → Reply × σ × Files

end PhotoCapture.Camera
