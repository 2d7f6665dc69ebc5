namespace PhotoCapture

inductive CaptureState where
  | idle
  | bindingDevice
  | applyingParameters
  | awaitingTimer
  | capturing
  | succeeded
  | failed
deriving DecidableEq

namespace CaptureState

def name : CaptureState → String
  | idle => "idle"
  | bindingDevice => "binding-device"
  | applyingParameters => "applying-parameters"
  | awaitingTimer => "awaiting-timer"
  | capturing => "capturing"
  | succeeded => "succeeded"
  | failed => "failed"

/-- All states, in the order in which a capture can reach them. -/
def all : List CaptureState :=
  [idle, bindingDevice, applyingParameters, awaitingTimer, capturing, succeeded, failed]

def isTerminal : CaptureState → Bool
  | succeeded | failed => true
  | _ => false

/-- Whether the second state may follow the first. -/
def precedes : CaptureState → CaptureState → Bool
  | idle, bindingDevice
  | bindingDevice, applyingParameters
  | bindingDevice, failed
  | applyingParameters, awaitingTimer
  | applyingParameters, capturing
  | awaitingTimer, capturing
  | capturing, succeeded
  | capturing, failed => true
  | _, _ => false

def exits (state : CaptureState) : List CaptureState := all.filter state.precedes

end CaptureState

end PhotoCapture
