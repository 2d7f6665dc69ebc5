import PhotoCapture.Config.Basic
import PhotoCapture.Files.Access

namespace PhotoCapture

structure Environment where
  entries : List (String × String) := []

namespace Environment

def get? (environment : Environment) (name : String) : Option String :=
  (environment.entries.find? fun entry => entry.1 = name).map (·.2)

def home? (environment : Environment) : Option String :=
  (environment.get? "HOME").filter fun path => path ≠ ""

/-- The directory that a variable names by an absolute path, or else one below the home
directory. -/
def base? (environment : Environment) (name fallback : String) : Option String :=
  match (environment.get? name).filter Files.isAbsolute with
  | some directory => some directory
  | none => environment.home?.map fun home => Files.join home fallback

def configPath? (environment : Environment) : Option String :=
  (environment.base? "XDG_CONFIG_HOME" ".config").map fun base =>
    Files.join (Files.join base "shutter") "config.json"

def photoDir (environment : Environment) : String :=
  let base := (environment.base? "XDG_DATA_HOME" ".local/share").getD "."
  Files.join (Files.join base "shutter") "pictures"

end Environment

namespace Config

def loadFrom (files : Files) (path : String) : Except Error Config :=
  match files.read path with
  | .ok text => ofJson text
  | .error problem => .error (.config (path ++ ": " ++ problem.message))

/-- The configuration in the file that is used by default; the default configuration if there is
no such file, or none that can be read. -/
def load (environment : Environment) (files : Files) : Config :=
  match environment.configPath? with
  | none => {}
  | some path => if files.contains path then (loadFrom files path).toOption.getD {} else {}

/-- The files after a configuration was written to a path, with the directories above it made
where they were missing, or the problem in the way. -/
def saveTo (config : Config) (files : Files) (path : String) : Except Error Unit × Files :=
  let made := match Files.parent? path with
    | some directory => files.makeAll directory
    | none => (.ok (), files)
  match made with
  | (.error problem, files) => (.error (.storage problem.message), files)
  | (.ok (), files) =>
    match files.write path (.text config.text) with
    | .ok files => (.ok (), files)
    | .error problem => (.error (.storage problem.message), files)

def photoDir (config : Config) (environment : Environment) : String :=
  config.outputDir.getD environment.photoDir

end Config

end PhotoCapture
