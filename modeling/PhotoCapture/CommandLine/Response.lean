import PhotoCapture.Camera.Virtual
import PhotoCapture.Color.Single
import PhotoCapture.CommandLine.Options
import PhotoCapture.Config.Place
import PhotoCapture.Studio.Schedule

namespace PhotoCapture

/-- A kind of failure and its message, as the program shows them at its end. -/
def Failure.shown : Failure → String
  | bind m => "Bind(" ++ Text.quoted m ++ ")"
  | capture m => "Capture(" ++ Text.quoted m ++ ")"
  | storage m => "Storage(" ++ Text.quoted m ++ ")"
  | worker m => "Worker(" ++ Text.quoted m ++ ")"

def Error.shown : Error → String
  | config m => "Config(" ++ Text.quoted m ++ ")"
  | storage m => "Storage(" ++ Text.quoted m ++ ")"
  | capture reason => "Capture(" ++ reason.shown ++ ")"
  | other m => "Other(" ++ Text.quoted m ++ ")"

namespace CommandLine

structure Response where
  code : Nat := 0
  /-- What is printed before the camera is used. -/
  opening : String := ""
  /-- The seconds that pass before the photo is taken. -/
  wait : Nat := 0
  /-- What is printed after the camera was used. -/
  closing : String := ""
  errors : String := ""
  files : Files

/-- Where the program runs: its environment, its files, and the time at which it starts, with the
offset of the clock. -/
structure Place where
  environment : Environment
  files : Files
  start : Calendar.Instant
  offset : Calendar.Offset

def matrixText (description : String) : String :=
  let filter := Filter.ofDescription description
  let number (x : Single) : String := x.text .plain
  "brightness=" ++ number filter.brightness ++ " contrast=" ++ number filter.contrast ++
    " saturation=" ++ number filter.saturation ++
    " sepia=" ++ (if filter.sepia then "true" else "false") ++ "\n\n" ++ filter.matrix.text ++
    (if filter.matrix.isIdentity then "(identity)\n" else "")

/-- The call that options make. A request in JSON stands for all the others. -/
def call (options : Options) : Except Error Call :=
  match options.request with
  | none =>
    .ok ⟨some options.filter, some options.flash, some options.facing, some options.timer,
      some options.zoom⟩
  | some text =>
    (Call.ofJson text).mapError fun fault =>
      .other ("Invalid capture request: " ++ fault.message text.toList)

def configPath? (place : Place) (options : Options) : Option String :=
  options.config.or place.environment.configPath?

def config (place : Place) (options : Options) : Except Error Config :=
  let loaded := match options.config with
    | some path => Config.loadFrom place.files path
    | none => .ok (Config.load place.environment place.files)
  loaded.map fun config =>
    { config with
      outputDir := options.output.or config.outputDir
      policy := if options.unsynchronized then .unsynchronized else config.policy }

def captureOpening (request : Request) : String :=
  let seconds := String.ofList (Numeral.digits request.timer.toNat)
  "Capturing: facing=" ++ request.facing.name ++ " flash=" ++ request.flash.name ++
    " zoom=" ++ request.zoom.text .plain ++ " timer=" ++ seconds ++ "s\n" ++
    (if request.timer = 0 then "" else "Waiting " ++ seconds ++ " seconds...\n")

def filterText : Option (ColorMatrix Single) → String
  | some matrix =>
    if matrix.isIdentity then "" else "Filter (not applied to the saved file):\n" ++ matrix.text
  | none => ""

def errorLine (error : Error) : String := "Error: " ++ error.shown ++ "\n"

/-- The studio after one request to a virtual camera. -/
def captured (place : Place) (config : Config) (request : Request) :
    Studio Camera.Virtual :=
  let setting : Studio.Setting Camera.Virtual :=
    ⟨Camera.Virtual.device, config.policy, config.photoDir place.environment, place.start,
      place.offset⟩
  Studio.play setting (.opened { sensor := config.sensor } place.files)
    [{ time := 0, request := request }]

def completed (request : Request) (files : Files) (c : Completion) : Response :=
  let filter := match c.ending with
    | .reported report => filterText report.filter
    | .brokenOff _ => ""
  let response : Response :=
    { opening := captureOpening request, wait := Studio.sleep request.timer.toNat,
      closing := filter, files := files }
  match c.ending.outcome c.run with
  | .saved path => { response with closing := filter ++ "Photo saved: " ++ path ++ "\n" }
  | .failed reason => { response with code := 1, errors := errorLine (.capture reason) }

def capture (place : Place) (options : Options) : Except Error Response := do
  let call ← call options
  let config ← config place options
  let studio := captured place config call.request
  match studio.completions with
  | c :: _ => return completed call.request studio.files c
  | [] => return { opening := captureOpening call.request, files := studio.files }

def versionText : String := "shutter 0.1.0\n"

def helpText : String :=
  "Capture photos with filter, flash, zoom and timer settings\n\n" ++
    "Usage: shutter [OPTIONS] <COMMAND>\n"

def respond (place : Place) (args : List String) : Response :=
  match Invocation.ofArguments args with
  | .error .misuse => { code := 2, errors := helpText, files := place.files }
  | .error .help => { opening := helpText, files := place.files }
  | .error .version => { opening := versionText, files := place.files }
  | .ok ⟨.matrix, options⟩ => { opening := matrixText options.filter, files := place.files }
  | .ok ⟨.capture, options⟩ =>
    match capture place options with
    | .ok response => response
    | .error error => { code := 1, errors := errorLine error, files := place.files }

end CommandLine

end PhotoCapture
