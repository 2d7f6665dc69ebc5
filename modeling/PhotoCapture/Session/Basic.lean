import PhotoCapture.Camera.Basic
import PhotoCapture.Text.Numeral
import PhotoCapture.Text.Quoted

namespace PhotoCapture

/-- A command in the log: when and for whom it was given, what the camera was set to before, and
how it answered. -/
structure Session.Entry where
  time : Nat
  client : Nat
  command : Camera.Command
  before : Camera.State
  reply : Camera.Reply
deriving DecidableEq

/-- A camera, the facing bound through this session, and the log of all commands that the camera was
given. -/
structure Session (σ : Type) where
  camera : σ
  bound : Option Facing := none
  log : List Session.Entry := []

namespace Session

variable {σ : Type}

structure Stamp where
  time : Nat := 0
  client : Nat := 0
deriving DecidableEq

def answered (device : Camera.Device σ) (stamp : Stamp) (session : Session σ)
    (command : Camera.Command) (reply : Camera.Reply) (camera : σ) : Session σ :=
  let entry := ⟨stamp.time, stamp.client, command, device.state session.camera, reply⟩
  { session with camera := camera, log := session.log ++ [entry] }

def give (device : Camera.Device σ) (stamp : Stamp) (c : Camera.Control) (session : Session σ) :
    Camera.Reply × Session σ :=
  let (reply, camera) := device.control c session.camera
  (reply, session.answered device stamp (.control c) reply camera)

inductive Binding where
  /-- It was bound already. -/
  | kept
  /-- The camera was let go of and asked for anew. -/
  | asked (reply : Camera.Reply)
deriving DecidableEq

/-- Binds a facing that is not bound yet. The camera is let go of before, so nothing is bound
until it has agreed. -/
def ensureBound (device : Camera.Device σ) (stamp : Stamp) (facing : Facing)
    (session : Session σ) : Binding × Session σ :=
  if session.bound = some facing then (.kept, session)
  else
    match give device stamp .unbindAll { session with bound := none } with
    | (.crashed message, session) => (.asked (.crashed message), session)
    | (_, session) =>
      match give device stamp (.bind facing) session with
      | (.done, session) => (.asked .done, { session with bound := some facing })
      | (reply, session) => (.asked reply, session)

/-- Gives the camera a command that sets it, if a facing is bound. -/
def set (device : Camera.Device σ) (stamp : Stamp) (c : Camera.Control) (session : Session σ) :
    Camera.Reply × Session σ :=
  if session.bound.isNone then (.refused .notBound, session) else session.give device stamp c

def setTorch (device : Camera.Device σ) (stamp : Stamp) (on : Bool) :
    Session σ → Camera.Reply × Session σ :=
  set device stamp (.torch on)

def setZoom (device : Camera.Device σ) (stamp : Stamp) (x : Single) :
    Session σ → Camera.Reply × Session σ :=
  set device stamp (.linearZoom x)

def brokenOff (task : Nat) (message : String) : String :=
  "task " ++ String.ofList (Numeral.digits task) ++ " panicked with message " ++
    Text.quoted message

/-- Takes a picture, if a facing is bound. The work is done apart, so the one who asked is told
when it breaks off, and goes on. -/
def capture (device : Camera.Device σ) (stamp : Stamp) (path : String) (session : Session σ)
    (files : Files) : Except Camera.Error Unit × Session σ × Files :=
  if session.bound.isNone then (.error .notBound, session, files)
  else
    let (reply, camera, files) := device.capture path session.camera files
    let result := match reply with
      | .done => .ok ()
      | .refused error => .error error
      | .crashed message => .error (.workerFailed (brokenOff stamp.client message))
    (result, session.answered device stamp (.capture path) reply camera, files)

end Session

end PhotoCapture
