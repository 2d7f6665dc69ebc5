import PhotoCapture.Control.Basic
import PhotoCapture.Json.Decoder
import PhotoCapture.Json.Value

namespace PhotoCapture

/-- The arguments of a capture, each of which may be left out. -/
structure Call where
  filter : Option String := none
  flash : Option String := none
  facing : Option String := none
  timer : Option Int64 := none
  zoom : Option Double := none
deriving DecidableEq

/-- A capture with all its parameters. The filter is a description, the timer counts seconds, and
the zoom is a factor. -/
structure Request where
  filter : String
  flash : Flash
  facing : Facing
  timer : UInt32
  zoom : Single
deriving DecidableEq

namespace Call

def fields : List (Json.Field Call) :=
  let text := Json.Decoder.optional (Json.Decoder.text "a string")
  let timer := (Json.Decoder.integer "i64" Int64.minValue.toInt Int64.maxValue.toInt).map .ofInt
  [.of "filterXml" text fun x call => { call with filter := x },
    .of "flashMode" text fun x call => { call with flash := x },
    .of "cameraFacing" text fun x call => { call with facing := x },
    .of "timer" (.optional timer) fun x call => { call with timer := x },
    .of "zoom" (.optional (.real "f64")) fun x call => { call with zoom := x }]

def decoder : Json.Decoder Call := .record "CaptureCall" fields {}

def ofJson (text : String) : Except Json.Fault Call := decoder.decode text

def member {α : Type} (name : String) (value : α → Json.Value) (field : Option α) :
    List (List Char × Json.Value) :=
  (field.map fun x => (name.toList, value x)).toList

/-- A call in JSON, without the fields that are left out. -/
def json (call : Call) : Json.Value :=
  let text (s : String) : Json.Value := .text s.toList
  .object (member "filterXml" text call.filter ++ member "flashMode" text call.flash ++
    member "cameraFacing" text call.facing ++
    member "timer" (fun n => .integer n.toInt) call.timer ++
    member "zoom" .ofDouble call.zoom)

def text (call : Call) : String := String.ofList call.json.compact

/-- The seconds that a timer asks for; a negative one asks for none. -/
def seconds (timer : Int64) : UInt32 := .ofNat (min timer.toInt.toNat (UInt32.size - 1))

/-- A zoom factor in 32-bit arithmetic; one that is not finite there is one. -/
def factor (zoom : Double) : Single :=
  let x : Single := zoom.convert
  if x.isFinite then x else 1

def request (call : Call) : Request where
  filter := call.filter.getD ""
  flash := (call.flash.map Flash.ofName).getD .auto
  facing := (call.facing.map Facing.ofName).getD .back
  timer := seconds (call.timer.getD 0)
  zoom := factor (call.zoom.getD 1)

end Call

namespace Request

def standard : Request := ({} : Call).request

/-- Whether two requests ask for the same, with zoom factors compared as numbers. -/
def agrees (r s : Request) : Bool :=
  r.filter = s.filter && r.flash = s.flash && r.facing = s.facing && r.timer = s.timer &&
    r.zoom.equals s.zoom

def controls (r : Request) : Controls := .ofParameters r.facing r.flash r.zoom

end Request

end PhotoCapture
