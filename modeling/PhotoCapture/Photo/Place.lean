import PhotoCapture.Files.Access
import PhotoCapture.Photo.Name

namespace PhotoCapture.Photo

/-- The absolute path for a photo of that name in a directory, and the files with the directory
made. -/
def prepare (files : Files) (directory name : String) : Except Files.Problem String × Files :=
  match files.makeAll directory with
  | (.error problem, files) => (.error problem, files)
  | (.ok (), files) => ((files.canonical directory).map fun dir => Files.join dir name, files)

end PhotoCapture.Photo
