import PhotoCapture.Studio.Step

namespace PhotoCapture.Studio

variable {σ : Type}

/-- A request that is made at a time in milliseconds. -/
structure Arrival where
  time : Nat
  request : Request
  /-- Whether the requests behind it are held back until it has been completed. -/
  holdsBack : Bool := false
  /-- Whether somebody stays for its completion. -/
  awaited : Bool := true

/-- A studio with the requests that are still to come, the runs that somebody stays for, and the
run that holds the next request back. -/
structure Course (σ : Type) where
  studio : Studio σ
  arrivals : List Arrival
  awaited : List Nat := []
  heldBy : Option Nat := none

namespace Course

def isCompleted (studio : Studio σ) (i : Nat) : Bool := studio.completions.any fun c => c.run = i

/-- The first run that can take a step. -/
def ready? (world : World σ) (studio : Studio σ) : Option Nat :=
  (List.range studio.runs.length).find? fun i => (studio.next? world (.act i)).isSome

def dues (studio : Studio σ) : List Nat :=
  studio.runs.filterMap fun run =>
    match run.stage with
    | .counting due => some due
    | _ => none

/-- The request that is made next, unless it is held back. -/
def arrival? (course : Course σ) : Option Arrival :=
  if course.heldBy.all fun i => isCompleted course.studio i then course.arrivals.head? else none

def event? (world : World σ) (course : Course σ) : Option Event :=
  match ready? world course.studio with
  | some i => some (.act i)
  | none =>
    let arrival := course.arrival?
    match arrival.filter fun a => a.time ≤ course.studio.now with
    | some a => some (.request a.request)
    | none => ((arrival.map (·.time)).toList ++ dues course.studio).min?.map .advance

def after (world : World σ) (course : Course σ) (event : Event) : Course σ :=
  let course' := { course with studio := (course.studio.next? world event).getD course.studio }
  match event, course.arrivals with
  | .request _, a :: arrivals =>
    let i := course.studio.runs.length
    { course' with
      arrivals := arrivals
      awaited := if a.awaited then i :: course.awaited else course.awaited
      heldBy := if a.holdsBack then some i else none }
  | _, _ => course'

def isOver (course : Course σ) : Bool :=
  course.arrivals.isEmpty && course.awaited.all fun i => isCompleted course.studio i

/-- The studio when a condition holds, or when nothing more happens. The number bounds the
events. -/
def playUntil (world : World σ) (stop : Course σ → Bool) : Nat → Course σ → Course σ
  | 0, course => course
  | events + 1, course =>
    if stop course then course
    else
      match course.event? world with
      | none => course
      | some event => playUntil world stop events (course.after world event)

/-- The most events that a number of requests can bring about: the request itself, at most eight
steps of its run, and two passages of time. -/
def mostEvents (requests : Nat) : Nat := 11 * requests + 1

end Course

/-- The studio when all requests were made, those that somebody stays for were completed, and
someone who asks for the session after that has got it. -/
def play (setting : Setting σ) (studio : Studio σ) (arrivals : List Arrival) : Studio σ :=
  let world : World σ := { toSetting := setting }
  let bound := Course.mostEvents arrivals.length
  let idle := Course.playUntil world Course.isOver bound ⟨studio, arrivals, [], none⟩
  let visitor := idle.studio.runs.length
  let asked := { idle with
    studio := { idle.studio with lock := idle.studio.lock.ask visitor } }
  let admitted (course : Course σ) : Bool := course.studio.lock.holder = some visitor
  (Course.playUntil world admitted bound asked).studio

end PhotoCapture.Studio
