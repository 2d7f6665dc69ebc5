import PhotoCapture.Error
import PhotoCapture.Json.Decoder
import PhotoCapture.Json.Value
import PhotoCapture.Session.Policy

namespace PhotoCapture

structure Sensor where
  width : UInt32 := 640
  height : UInt32 := 480
  quality : UInt8 := 92
deriving DecidableEq

structure Config where
  outputDir : Option String := none
  policy : Session.Policy := .exclusive
  sensor : Sensor := {}
deriving DecidableEq

namespace Sensor

def fields : List (Json.Field Sensor) :=
  let size := (Json.Decoder.integer "u32" 0 (UInt32.size - 1)).map fun n => UInt32.ofNat n.toNat
  let quality := (Json.Decoder.integer "u8" 0 255).map fun n => UInt8.ofNat n.toNat
  [.of "width" size fun x sensor => { sensor with width := x },
    .of "height" size fun x sensor => { sensor with height := x },
    .of "jpeg_quality" quality fun x sensor => { sensor with quality := x }]

def decoder : Json.Decoder Sensor := .record "VirtualCameraConfig" fields {}

def json (sensor : Sensor) : Json.Value :=
  .object [("width".toList, .integer sensor.width.toNat),
    ("height".toList, .integer sensor.height.toNat),
    ("jpeg_quality".toList, .integer sensor.quality.toNat)]

end Sensor

namespace Config

def fields : List (Json.Field Config) :=
  [.of "output_dir" (.optional (.text "path string")) fun x config => { config with outputDir := x },
    .of "session_policy" (.variant Session.Policy.named) fun x config => { config with policy := x },
    .of "virtual_camera" Sensor.decoder fun x config => { config with sensor := x }]

def decoder : Json.Decoder Config := .record "Config" fields {}

def ofJson (text : String) : Except Error Config :=
  (decoder.decode text).mapError fun fault => .config (fault.message text.toList)

def json (config : Config) : Json.Value :=
  .object [("output_dir".toList, (config.outputDir.map fun s => .text s.toList).getD .null),
    ("session_policy".toList, .text config.policy.name.toList),
    ("virtual_camera".toList, config.sensor.json)]

def text (config : Config) : String := String.ofList (config.json.pretty 0)

end Config

end PhotoCapture
