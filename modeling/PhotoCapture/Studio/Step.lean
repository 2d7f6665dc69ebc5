import PhotoCapture.Filter.Description
import PhotoCapture.Photo.Place
import PhotoCapture.Studio.Basic

namespace PhotoCapture.Studio

variable {σ : Type}

inductive Event where
  | request (request : Request)
  /-- Time passes, up to a time in milliseconds. -/
  | advance (time : Nat)
  | act (run : Nat)
deriving DecidableEq

def setRun (studio : Studio σ) (i : Nat) (run : Run) : Studio σ :=
  { studio with runs := studio.runs.set i run }

def enter (studio : Studio σ) (i : Nat) (run : Run) (state : CaptureState) (stage : Stage) :
    Studio σ :=
  studio.setRun i { run with stage := stage, states := run.states ++ [state] }

/-- The studio after a run ended. The run gives the session up. -/
def finish (studio : Studio σ) (i : Nat) (run : Run) (ending : Ending) : Studio σ :=
  { studio.setRun i { run with stage := .ended ending } with lock := studio.lock.release i }

def report (run : Run) (outcome : Outcome) : Report :=
  let last := if outcome.isSaved then CaptureState.succeeded else .failed
  ⟨outcome, run.request.controls, run.filter, run.states ++ [last]⟩

def conclude (studio : Studio σ) (i : Nat) (run : Run) (outcome : Outcome) : Studio σ :=
  studio.finish i run (.reported (report run outcome))

def stamp (studio : Studio σ) (i : Nat) : Session.Stamp := ⟨studio.now, i⟩

def bind (world : World σ) (studio : Studio σ) (i : Nat) (run : Run) : Studio σ :=
  let (how, session) :=
    studio.session.ensureBound world.device (studio.stamp i) run.request.controls.facing
  let studio := { studio with session := session }
  match how with
  | .kept | .asked .done => studio.enter i run .applyingParameters .lighting
  | .asked (.refused error) => studio.conclude i run (.failed (.bind error.message))
  | .asked (.crashed message) => studio.finish i run (.brokenOff message)

/-- The run sets the torch. A refusal has no consequence. -/
def light (world : World σ) (studio : Studio σ) (i : Nat) (run : Run) : Studio σ :=
  let (reply, session) :=
    studio.session.setTorch world.device (studio.stamp i) run.request.controls.torch
  let studio := { studio with session := session }
  match reply with
  | .crashed message => studio.finish i run (.brokenOff message)
  | _ => studio.setRun i { run with stage := .zooming }

/-- The run has set torch and zoom, and starts its timer, if it has one. While the timer runs, it
keeps the session or not as the policy says. -/
def startTimer (world : World σ) (studio : Studio σ) (i : Nat) (run : Run) : Studio σ :=
  if run.request.timer = 0 then studio.setRun i { run with stage := .preparing }
  else
    let due := studio.now + 1000 * world.sleep run.request.timer.toNat
    let counting := studio.enter i run .awaitingTimer (.counting due)
    match world.policy with
    | .exclusive => counting
    | .unsynchronized => { counting with lock := studio.lock.release i }

/-- The run sets the zoom, and reads its filter. A refusal has no consequence. -/
def zoom (world : World σ) (studio : Studio σ) (i : Nat) (run : Run) : Studio σ :=
  let (reply, session) :=
    studio.session.setZoom world.device (studio.stamp i) run.request.controls.linearZoom
  let studio := { studio with session := session }
  match reply with
  | .crashed message => studio.finish i run (.brokenOff message)
  | _ =>
    studio.startTimer world i
      { run with filter := some (Filter.ofDescription run.request.filter).matrix }

/-- The timer of the run has expired. If the run has given the session up, it asks for it. -/
def endTimer (world : World σ) (studio : Studio σ) (i : Nat) (run : Run) : Studio σ :=
  let ready := studio.setRun i { run with stage := .preparing }
  match world.policy with
  | .exclusive => ready
  | .unsynchronized => { ready with lock := studio.lock.ask i }

def photoName (world : World σ) (studio : Studio σ) : String :=
  Photo.fileName { world.opening with second := world.opening.second + studio.now / 1000 }
    world.offset

def prepare (world : World σ) (studio : Studio σ) (i : Nat) (run : Run) : Studio σ :=
  let run := { run with states := run.states ++ [.capturing] }
  let (place, files) := Photo.prepare studio.files world.directory (studio.photoName world)
  let studio := { studio with files := files }
  match place with
  | .ok path => studio.setRun i { run with stage := .capturing path }
  | .error problem => studio.conclude i run (.failed (.storage problem.message))

def captureOutcome (path : String) : Except Camera.Error Unit → Outcome
  | .ok () => .saved path
  | .error (.workerFailed message) => .failed (.worker message)
  | .error error => .failed (.capture error.message)

def capture (world : World σ) (studio : Studio σ) (i : Nat) (run : Run) (path : String) :
    Studio σ :=
  let (result, session, files) :=
    studio.session.capture world.device (studio.stamp i) path studio.files
  { studio with session := session, files := files }.conclude i run (captureOutcome path result)

def deliver (studio : Studio σ) (i : Nat) (run : Run) (ending : Ending) : Studio σ :=
  { studio.setRun i { run with stage := .delivered ending } with
    completions := studio.completions ++ [⟨i, studio.now, ending⟩] }

/-- The studio after a step of a run that holds the session, if its next step needs that. -/
def actHolding? (world : World σ) (studio : Studio σ) (i : Nat) (run : Run) :
    Option (Studio σ) :=
  match run.stage with
  | .binding => some (studio.bind world i run)
  | .lighting => some (studio.light world i run)
  | .zooming => some (studio.zoom world i run)
  | .preparing => some (studio.prepare world i run)
  | .capturing path => some (studio.capture world i run path)
  | .counting _ | .ended _ | .delivered _ => none

/-- The studio after a step of a run, if the run can take one. -/
def act? (world : World σ) (studio : Studio σ) (i : Nat) (run : Run) : Option (Studio σ) :=
  match run.stage with
  | .counting due => if due ≤ studio.now then some (studio.endTimer world i run) else none
  | .ended ending => some (studio.deliver i run ending)
  | _ => if studio.lock.holder = some i then studio.actHolding? world i run else none

def next? (world : World σ) (studio : Studio σ) : Event → Option (Studio σ)
  | .request request =>
    some { studio with
      runs := studio.runs ++ [{ request := request }]
      lock := studio.lock.ask studio.runs.length }
  | .advance time => if studio.now < time then some { studio with now := time } else none
  | .act i => studio.runs[i]? >>= studio.act? world i

end PhotoCapture.Studio
