namespace PhotoCapture.Camera

inductive Error where
  | bindFailed (message : String)
  | notBound
  | controlFailed (message : String)
  | captureFailed (message : String)
  | workerFailed (message : String)
  | ioError (message : String)
  | other (message : String)
deriving DecidableEq

def Error.message : Error → String
  | bindFailed m => "Bind failed: " ++ m
  | notBound => "No camera session bound"
  | controlFailed m => "Control failed: " ++ m
  | captureFailed m => "Capture failed: " ++ m
  | workerFailed m => "Capture worker failed: " ++ m
  | ioError m => "I/O error: " ++ m
  | other m => "Error: " ++ m

end PhotoCapture.Camera
