namespace PhotoCapture

inductive Failure where
  | bind (message : String)
  | capture (message : String)
  /-- The place for the photo could not be prepared. -/
  | storage (message : String)
  /-- The work was broken off. -/
  | worker (message : String)
deriving DecidableEq

namespace Failure

def kind : Failure → String
  | bind _ => "bind"
  | capture _ => "capture"
  | storage _ => "storage"
  | worker _ => "worker"

def message : Failure → String
  | bind m => "Failed to bind camera: " ++ m
  | capture m => "Failed to capture photo: " ++ m
  | storage m => "Failed to prepare output: " ++ m
  | worker m => "Capture worker failed: " ++ m

end Failure

inductive Outcome where
  | saved (path : String)
  | failed (reason : Failure)
deriving DecidableEq

namespace Outcome

def isSaved : Outcome → Bool
  | saved _ => true
  | failed _ => false

def path? : Outcome → Option String
  | saved path => some path
  | failed _ => none

def failure? : Outcome → Option Failure
  | saved _ => none
  | failed reason => some reason

def result : Outcome → Except Failure String
  | saved path => .ok path
  | failed reason => .error reason

end Outcome

end PhotoCapture
