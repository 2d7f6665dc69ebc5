namespace PhotoCapture.Session

inductive Policy where
  /-- A request keeps the camera from binding it until its photo is taken. -/
  | exclusive
  /-- A request gives the camera up while its timer runs. -/
  | unsynchronized
deriving DecidableEq

namespace Policy

def name : Policy → String
  | exclusive => "exclusive"
  | unsynchronized => "unsynchronized"

def named : List (String × Policy) :=
  [exclusive, unsynchronized].map fun policy => (policy.name, policy)

end Policy

end PhotoCapture.Session
