import PhotoCapture.Camera.Basic

namespace PhotoCapture.Camera.Stub

def control : Control → State → Reply × State
  | .unbindAll, _ => (.done, {})
  | .bind facing, state => (.done, { state with facing := some facing })
  | .torch on, state => (.done, { state with torch := on })
  | .linearZoom x, state => (.done, { state with linearZoom := x })

def capture (path : String) (state : State) (files : Files) : Reply × State × Files :=
  match files.write path .stub with
  | .ok files => (.done, state, files)
  | .error problem => (.refused (.ioError problem.message), state, files)

/-- A camera without a sensor: it takes every command, and writes a stand-in for a picture. -/
def device : Device State := ⟨id, control, capture⟩

end PhotoCapture.Camera.Stub
