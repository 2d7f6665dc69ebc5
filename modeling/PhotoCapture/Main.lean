import PhotoCapture.CommandLine.Response
import Std.Time.Zoned

namespace PhotoCapture.CommandLine

def variableNames : List String := ["HOME", "XDG_CONFIG_HOME", "XDG_DATA_HOME"]

def readEnvironment : IO Environment := do
  let values ← variableNames.filterMapM fun name => do
    return (← IO.getEnv name).map fun value => (name, value)
  return ⟨values⟩

def observeOne (files : Files) (path : String) : IO Files := do
  let there := (← IO.currentDir) / path
  if ← there.isDir then return (files.makeDirectory path).toOption.getD files
  else if ← there.pathExists then
    let bytes ← IO.FS.readBinFile there
    let content := ((String.fromUTF8? bytes).map Files.Content.text).getD .stub
    return (files.write path content).toOption.getD files
  else return files

/-- The files with what the disk has at a path and above it. -/
def observe (files : Files) (path : String) : IO Files :=
  let names := (Files.Path.ofText path).names
  let paths := (List.range names.length).map fun n =>
    Files.Path.text ⟨Files.isAbsolute path, names.take (n + 1)⟩
  paths.foldlM observeOne files

/-- The files that the answer to arguments depends on. -/
def observeAll (place : Place) (args : List String) : IO Files := do
  match Invocation.ofArguments args with
  | .ok ⟨.capture, options⟩ =>
    let files ← (configPath? place options).toList.foldlM observe place.files
    match config { place with files := files } options with
    | .ok config => observe files (config.photoDir place.environment)
    | .error _ => return files
  | _ => return place.files

def store (path : String) : Files.Content → IO Unit
  | .text s => IO.FS.writeFile path s
  | .stub => IO.FS.writeBinFile path ⟨#[0xff, 0xd8]⟩
  | .photo header => IO.FS.writeBinFile path ⟨header.bytes.toArray⟩

/-- Puts on the disk what files have in a directory, and what they did not have before. -/
def storeDirectory (before : Files) (directory : Files.Directory) : IO Unit := do
  let path := Files.absolutePath directory.location
  unless before.hasDirectory path do IO.FS.createDirAll path
  for (name, node) in directory.entries.reverse do
    match node with
    | .directory _ => pure ()
    | .file content =>
      let path := Files.absolutePath (directory.location ++ [name])
      if before.content? path ≠ some content then store path content

/-- Runs the program, and gives the code that it ends with. A photo is put on the disk as its
header. -/
def runProgram (args : List String) : IO UInt32 := do
  let now ← Std.Time.Timestamp.now
  let zone := (← Std.Time.Database.defaultGetLocalZoneRules).timezoneAt now
  let offset := (Calendar.Offset.ofSeconds? zone.offset.second.val).getD .zero
  let files := Files.empty (Files.Path.ofText (← IO.currentDir).toString).names
  let start : Calendar.Instant := { second := now.toSecondsSinceUnixEpoch.val }
  let place : Place := ⟨← readEnvironment, files, start, offset⟩
  let before ← observeAll place args
  let response := respond { place with files := before } args
  IO.print response.opening
  (← IO.getStdout).flush
  for _ in [0:response.wait] do IO.sleep 1000
  for directory in response.files.directories do storeDirectory before directory
  IO.print response.closing
  IO.eprint response.errors
  return UInt32.ofNat response.code

end PhotoCapture.CommandLine

def main (args : List String) : IO UInt32 := PhotoCapture.CommandLine.runProgram args
