import PhotoCapture.Camera.Basic

namespace PhotoCapture.Camera

inductive Command.Kind where
  | unbindAll
  | bind
  | torch
  | linearZoom
  | capture
deriving DecidableEq

def Control.kind : Control → Command.Kind
  | unbindAll => .unbindAll
  | bind _ => .bind
  | torch _ => .torch
  | linearZoom _ => .linearZoom

/-- A fault at commands of a kind: at the one with so many of its kind before it, or at all. -/
structure Fault where
  kind : Command.Kind
  after : Option Nat
  reply : Reply
deriving DecidableEq

/-- A camera with the kinds of the commands that it was given. -/
structure Faulty (σ : Type) where
  camera : σ
  given : List Command.Kind := []

namespace Faulty

variable {σ : Type}

/-- The reply of the first fault that a command of a kind meets. -/
def fault? (faults : List Fault) (camera : Faulty σ) (kind : Command.Kind) : Option Reply :=
  (faults.find? fun fault =>
    fault.kind = kind && (fault.after.all fun n => n = camera.given.count kind)).map (·.reply)

def remember (camera : Faulty σ) (kind : Command.Kind) : Faulty σ :=
  { camera with given := kind :: camera.given }

/-- A refusal to let go of the camera has no effect. -/
def isIgnored (kind : Command.Kind) : Reply → Bool
  | .refused _ => kind = .unbindAll
  | _ => false

def control (faults : List Fault) (device : Device σ) (c : Control) (camera : Faulty σ) :
    Reply × Faulty σ :=
  match (camera.fault? faults c.kind).filter fun reply => !isIgnored c.kind reply with
  | some reply => (reply, camera.remember c.kind)
  | none =>
    let (reply, inner) := device.control c camera.camera
    (reply, { camera.remember c.kind with camera := inner })

def capture (faults : List Fault) (device : Device σ) (path : String) (camera : Faulty σ)
    (files : Files) : Reply × Faulty σ × Files :=
  match camera.fault? faults .capture with
  | some reply => (reply, camera.remember .capture, files)
  | none =>
    let (reply, inner, files) := device.capture path camera.camera files
    (reply, { camera.remember .capture with camera := inner }, files)

def device (faults : List Fault) (device : Device σ) : Device (Faulty σ) :=
  ⟨fun camera => device.state camera.camera, control faults device, capture faults device⟩

end Faulty

end PhotoCapture.Camera
