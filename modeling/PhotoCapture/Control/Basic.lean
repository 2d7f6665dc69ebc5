import PhotoCapture.Binary.Basic
import PhotoCapture.Text.Blank

namespace PhotoCapture

inductive Flash where
  | on
  | off
  | auto
deriving DecidableEq

inductive Facing where
  | front
  | back
deriving DecidableEq

namespace Flash

def name : Flash → String
  | on => "on"
  | off => "off"
  | auto => "auto"

def named : List (String × Flash) := [on, off, auto].map fun mode => (mode.name, mode)

/-- The mode with a name in any case, with blanks around it; an unknown name is automatic. -/
def ofName (s : String) : Flash :=
  let text := String.ofList (Text.lower (Text.trim s.toList))
  if text = "on" then on else if text = "off" then off else auto

/-- Whether the torch is lit. Devices have no metering, so the automatic mode leaves it dark. -/
def torch : Flash → Bool
  | on => true
  | off | auto => false

end Flash

namespace Facing

def name : Facing → String
  | front => "front"
  | back => "back"

def named : List (String × Facing) := [front, back].map fun facing => (facing.name, facing)

/-- The front camera by its name in any case, with blanks around it; else the back camera. -/
def ofName (s : String) : Facing :=
  if String.ofList (Text.lower (Text.trim s.toList)) = "front" then front else back

end Facing

/-- The zoom factors from one to four on the linear scale of a device from zero to one. Factors
beyond an end go to that end, and not-a-number goes to zero. -/
def linearZoom (factor : Single) : Single :=
  let linear := (factor - 1.0) / (4.0 - 1.0)
  if linear.isNan then 0 else linear.clamp 0 1

structure Controls where
  facing : Facing
  torch : Bool
  linearZoom : Single
deriving DecidableEq

def Controls.ofParameters (facing : Facing) (flash : Flash) (zoom : Single) : Controls :=
  ⟨facing, flash.torch, PhotoCapture.linearZoom zoom⟩

end PhotoCapture
