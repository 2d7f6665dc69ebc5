import PhotoCapture.Capture.Outcome

namespace PhotoCapture

inductive Error where
  | config (message : String)
  | storage (message : String)
  | capture (reason : Failure)
  | other (message : String)
deriving DecidableEq

def Error.message : Error → String
  | config m => "Configuration error: " ++ m
  | storage m => "Storage error: " ++ m
  | capture reason => "Capture error: " ++ reason.message
  | other m => m

end PhotoCapture
