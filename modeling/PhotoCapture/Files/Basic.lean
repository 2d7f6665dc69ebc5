import PhotoCapture.Files.Path
import PhotoCapture.Photo.Header

namespace PhotoCapture

inductive Files.Content where
  | text (s : String)
  /-- The stand-in that a camera without a sensor writes. -/
  | stub
  | photo (header : Photo.Header)
deriving DecidableEq

/-- The number of a directory in its tree. The root has number zero. -/
abbrev Files.Index := Nat

inductive Files.Node where
  | directory (index : Files.Index)
  | file (content : Files.Content)
deriving DecidableEq

/-- A place in the tree, as the names from the root. -/
abbrev Files.Location := List Files.Name

/-- A directory: where it stands, the directory that holds it, and what stands in it, the latest
first. The root is held by itself. -/
structure Files.Directory where
  location : Files.Location
  parent : Files.Index
  entries : List (Files.Name × Files.Node) := []
deriving DecidableEq

/-- A tree of files, and the directory where relative paths start. Directories are never removed and
nothing is a link, so every directory keeps its number. -/
structure Files where
  current : Files.Index
  directories : Array Files.Directory
deriving DecidableEq

namespace Files

inductive Problem where
  | missing
  | occupied
  | notDirectory
  | isDirectory
  | nameTooLong
  | nulInPath
  | notText
deriving DecidableEq

def Problem.message : Problem → String
  | missing => "No such file or directory (os error 2)"
  | occupied => "File exists (os error 17)"
  | notDirectory => "Not a directory (os error 20)"
  | isDirectory => "Is a directory (os error 21)"
  | nameTooLong => "File name too long (os error 36)"
  | nulInPath => "file name contained an unexpected NUL byte"
  | notText => "stream did not contain valid UTF-8"

/-- The longest name, in bytes. -/
def longestName : Nat := 255

def location (files : Files) (directory : Index) : Location :=
  (files.directories[directory]?.map (·.location)).getD []

def parent (files : Files) (directory : Index) : Index :=
  (files.directories[directory]?.map (·.parent)).getD 0

def entries (files : Files) (directory : Index) : List (Name × Node) :=
  (files.directories[directory]?.map (·.entries)).getD []

def lookUp (files : Files) (directory : Index) (name : Name) : Except Problem (Option Node) :=
  if longestName < Text.size name then .error .nameTooLong
  else if directory < files.directories.size then .ok ((files.entries directory).lookup name)
  else .error .missing

/-- The tree with something put under a name in a directory, in place of what stood there. -/
def put (files : Files) (directory : Index) (name : Name) (node : Node) : Files :=
  { files with
    directories := files.directories.modify directory fun d =>
      { d with entries := (name, node) :: d.entries.filter (·.1 ≠ name) } }

def putDirectory (files : Files) (directory : Index) (name : Name) : Files :=
  let holding := files.put directory name (.directory files.directories.size)
  { holding with
    directories := holding.directories.push ⟨files.location directory ++ [name], directory, []⟩ }

def root : Files := ⟨0, #[⟨[], 0, []⟩]⟩

/-- The tree that holds a current directory, empty, and the directories above it. -/
def empty (current : Location) : Files :=
  current.foldl
    (fun files name =>
      { files.putDirectory files.current name with current := files.directories.size })
    root

end Files

end PhotoCapture
