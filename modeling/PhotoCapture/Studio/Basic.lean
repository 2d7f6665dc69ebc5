import PhotoCapture.Calendar.Instant
import PhotoCapture.Capture.Call
import PhotoCapture.Capture.Outcome
import PhotoCapture.Capture.State
import PhotoCapture.Filter.Basic
import PhotoCapture.Session.Basic
import PhotoCapture.Session.Lock
import PhotoCapture.Session.Policy

namespace PhotoCapture

/-- What a run tells at its end. The filter is not applied to the photo; it is missing when the
camera could not be bound. -/
structure Report where
  outcome : Outcome
  controls : Controls
  filter : Option (ColorMatrix Single)
  states : List CaptureState
deriving DecidableEq

inductive Ending where
  | reported (report : Report)
  /-- The run broke off before it could report. -/
  | brokenOff (message : String)
deriving DecidableEq

/-- The outcome of a run for the one who asked for it, with the number of the run. -/
def Ending.outcome (run : Nat) : Ending → Outcome
  | reported report => report.outcome
  | brokenOff message => .failed (.worker (Session.brokenOff run message))

/-- What a run does next. -/
inductive Stage where
  /-- Binds the camera, once it has the session. -/
  | binding
  | lighting
  | zooming
  /-- Waits until a time in milliseconds. -/
  | counting (due : Nat)
  /-- Prepares the place for the photo, once it has the session. -/
  | preparing
  | capturing (path : String)
  /-- Has ended, and its ending is still to be delivered. -/
  | ended (ending : Ending)
  | delivered (ending : Ending)
deriving DecidableEq

/-- A run of a request, with the states that it has passed through and the filter, once it has
got that far. -/
structure Run where
  request : Request
  stage : Stage := .binding
  states : List CaptureState := [.idle, .bindingDevice]
  filter : Option (ColorMatrix Single) := none
deriving DecidableEq

/-- The ending of a run, handed to the one who asked for it at a time in milliseconds. -/
structure Completion where
  run : Nat
  time : Nat
  ending : Ending
deriving DecidableEq

/-- What does not change in a studio: the camera, how it is shared, the directory for photos, and
the time at which the studio opens, with the offset of its clock. -/
structure Studio.Setting (σ : Type) where
  device : Camera.Device σ
  policy : Session.Policy
  directory : String
  opening : Calendar.Instant
  offset : Calendar.Offset

/-- The longest time that a timer runs, in seconds: thirty years of 365 days. -/
def Studio.longestSleep : Nat := 30 * 365 * 86400

def Studio.sleep (seconds : Nat) : Nat := min seconds longestSleep

/-- A setting with the timers that are there. -/
structure Studio.World (σ : Type) extends Setting σ where
  /-- The seconds that pass while a timer of so many seconds runs. -/
  sleep : Nat → Nat := Studio.sleep

/-- A studio at a time in milliseconds after it opened. The runs are numbered in the order of
their requests. -/
structure Studio (σ : Type) where
  now : Nat := 0
  session : Session σ
  lock : Session.Lock Nat := {}
  files : Files
  runs : List Run := []
  completions : List Completion := []

namespace Studio

variable {σ : Type}

def opened (camera : σ) (files : Files) : Studio σ :=
  { session := { camera := camera }, files := files }

end Studio

end PhotoCapture
