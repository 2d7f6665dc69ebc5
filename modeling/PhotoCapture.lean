import PhotoCapture.Binary.Basic
import PhotoCapture.Binary.Format
import PhotoCapture.Calendar.Date
import PhotoCapture.Calendar.Instant
import PhotoCapture.Camera.Basic
import PhotoCapture.Camera.Error
import PhotoCapture.Camera.Fault
import PhotoCapture.Camera.Scene
import PhotoCapture.Camera.Stub
import PhotoCapture.Camera.Virtual
import PhotoCapture.Capture.Call
import PhotoCapture.Capture.Outcome
import PhotoCapture.Capture.State
import PhotoCapture.Color.Matrix
import PhotoCapture.Color.Single
import PhotoCapture.Config.Basic
import PhotoCapture.Config.Place
import PhotoCapture.Control.Basic
import PhotoCapture.Decimal.Layout
import PhotoCapture.Decimal.Reading
import PhotoCapture.Decimal.Shortest
import PhotoCapture.Error
import PhotoCapture.Files.Access
import PhotoCapture.Files.Basic
import PhotoCapture.Files.Path
import PhotoCapture.Filter.Basic
import PhotoCapture.Filter.Description
import PhotoCapture.Json.Decoder
import PhotoCapture.Json.Fault
import PhotoCapture.Json.Number
import PhotoCapture.Json.Text
import PhotoCapture.Json.Value
import PhotoCapture.Main
import PhotoCapture.Markup.Attribute
import PhotoCapture.Markup.Piece
import PhotoCapture.Markup.Reader
import PhotoCapture.Markup.Reference
import PhotoCapture.Photo.Header
import PhotoCapture.Photo.Name
import PhotoCapture.Photo.Place
import PhotoCapture.Proofs.Binary.Arithmetic
import PhotoCapture.Proofs.Binary.Bounds
import PhotoCapture.Proofs.Binary.Closure
import PhotoCapture.Proofs.Binary.Neutral
import PhotoCapture.Proofs.Binary.Order
import PhotoCapture.Proofs.Binary.Rounding
import PhotoCapture.Proofs.Binary.Scaling
import PhotoCapture.Proofs.Calendar.Order
import PhotoCapture.Proofs.Camera.Commands
import PhotoCapture.Proofs.Camera.Facing
import PhotoCapture.Proofs.Camera.Scene
import PhotoCapture.Proofs.Camera.Virtual
import PhotoCapture.Proofs.Capture.Json
import PhotoCapture.Proofs.Capture.Zoom
import PhotoCapture.Proofs.Color.Affine
import PhotoCapture.Proofs.Color.Alpha
import PhotoCapture.Proofs.Color.Bounds
import PhotoCapture.Proofs.Color.Composition
import PhotoCapture.Proofs.Color.Grey
import PhotoCapture.Proofs.Color.Identity
import PhotoCapture.Proofs.Color.Pixels
import PhotoCapture.Proofs.Color.Saturation
import PhotoCapture.Proofs.Color.Single
import PhotoCapture.Proofs.Config.Json
import PhotoCapture.Proofs.Control.Zoom
import PhotoCapture.Proofs.Files.Writing
import PhotoCapture.Proofs.Filter.Alpha
import PhotoCapture.Proofs.Filter.Deciding
import PhotoCapture.Proofs.Filter.Description
import PhotoCapture.Proofs.Filter.Grey
import PhotoCapture.Proofs.Filter.Identity
import PhotoCapture.Proofs.Filter.Inert
import PhotoCapture.Proofs.Filter.Luma
import PhotoCapture.Proofs.Filter.Progress
import PhotoCapture.Proofs.Filter.Repetition
import PhotoCapture.Proofs.Filter.Stages
import PhotoCapture.Proofs.Json.Grammar
import PhotoCapture.Proofs.Json.Layout
import PhotoCapture.Proofs.Json.Number
import PhotoCapture.Proofs.Json.Reading
import PhotoCapture.Proofs.Json.Record
import PhotoCapture.Proofs.Json.Skipping
import PhotoCapture.Proofs.Json.Text
import PhotoCapture.Proofs.Markup.Locality
import PhotoCapture.Proofs.Markup.Progress
import PhotoCapture.Proofs.Markup.Repetition
import PhotoCapture.Proofs.Photo.Name
import PhotoCapture.Proofs.Session.Agreement
import PhotoCapture.Proofs.Session.Alike
import PhotoCapture.Proofs.Session.Answers
import PhotoCapture.Proofs.Session.Binding
import PhotoCapture.Proofs.Session.Bound
import PhotoCapture.Proofs.Session.Queue
import PhotoCapture.Proofs.Session.Rebinding
import PhotoCapture.Proofs.Session.Untimed
import PhotoCapture.Proofs.Studio.Accord
import PhotoCapture.Proofs.Studio.Accounted
import PhotoCapture.Proofs.Studio.Alike
import PhotoCapture.Proofs.Studio.Block
import PhotoCapture.Proofs.Studio.Commands
import PhotoCapture.Proofs.Studio.Completion
import PhotoCapture.Proofs.Studio.Discipline
import PhotoCapture.Proofs.Studio.Exclusive
import PhotoCapture.Proofs.Studio.Fairness
import PhotoCapture.Proofs.Studio.Forecast
import PhotoCapture.Proofs.Studio.Holding
import PhotoCapture.Proofs.Studio.Lone
import PhotoCapture.Proofs.Studio.Outcomes
import PhotoCapture.Proofs.Studio.Photos
import PhotoCapture.Proofs.Studio.Policies
import PhotoCapture.Proofs.Studio.Prospect
import PhotoCapture.Proofs.Studio.Reach
import PhotoCapture.Proofs.Studio.Report
import PhotoCapture.Proofs.Studio.Rest
import PhotoCapture.Proofs.Studio.Settings
import PhotoCapture.Proofs.Studio.Turn
import PhotoCapture.Proofs.Text.Numeral
import PhotoCapture.Proofs.Text.Order
import PhotoCapture.Session.Policy
import PhotoCapture.Session.Shared
import PhotoCapture.Text.Blank
import PhotoCapture.Text.Formless
import PhotoCapture.Text.Numeral
import PhotoCapture.Text.Quoted
import PhotoCapture.Text.Size
