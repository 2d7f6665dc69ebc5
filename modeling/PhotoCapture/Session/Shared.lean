import PhotoCapture.Session.Basic
import PhotoCapture.Session.Lock

namespace PhotoCapture.Session

/-- A session, who has it and who waits for it, and the files that the camera writes to. -/
structure Shared (σ ι : Type) where
  session : Session σ
  lock : Lock ι := {}
  files : Files

inductive Action where
  | ensureBound (facing : Facing)
  | torch (on : Bool)
  | zoom (x : Single)
  | capture (path : String)
deriving DecidableEq

inductive Act (ι : Type) where
  | acquire (client : ι)
  | release (client : ι)
  | use (client : ι) (action : Action)

inductive Told where
  | nothing
  | waiting
  | unknown
  | bound (how : Binding)
  | replied (reply : Camera.Reply)
  | captured (result : Except Camera.Error Unit)

namespace Shared

variable {σ ι : Type} [DecidableEq ι]

def perform (device : Camera.Device σ) (client : ι) (action : Action) (shared : Shared σ ι) :
    Told × Shared σ ι :=
  match action with
  | .ensureBound facing =>
    let (how, session) := shared.session.ensureBound device {} facing
    (.bound how, { shared with session := session })
  | .torch on =>
    let (reply, session) := shared.session.setTorch device {} on
    (.replied reply, { shared with session := session })
  | .zoom x =>
    let (reply, session) := shared.session.setZoom device {} x
    (.replied reply, { shared with session := session })
  | .capture path =>
    let (result, session, files) := shared.session.capture device {} path shared.files
    (.captured result, ⟨session, shared.lock.release client, files⟩)

def step (device : Camera.Device σ) (shared : Shared σ ι) : Act ι → Told × Shared σ ι
  | .acquire client => (.nothing, { shared with lock := shared.lock.ask client })
  | .release client => (.nothing, { shared with lock := shared.lock.release client })
  | .use client action =>
    if shared.lock.holder = some client then shared.perform device client action
    else if shared.lock.knows client then (.waiting, shared)
    else (.unknown, shared)

def run (device : Camera.Device σ) (shared : Shared σ ι) (acts : List (Act ι)) : Shared σ ι :=
  acts.foldl (fun shared act => (shared.step device act).2) shared

end Shared

end PhotoCapture.Session
