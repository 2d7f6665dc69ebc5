import PhotoCapture.Files.Basic

namespace PhotoCapture.Files

/-- The longest path, in bytes. -/
def longestPath : Nat := 4095

/-- Where the names of a path lead: to a directory, when the last name refers to one by dots, or
to a name in a directory, where something may stand or not. -/
inductive Place where
  | dots (directory : Index)
  | entry (directory : Index) (name : Name)
deriving DecidableEq

/-- Where names lead from a directory. The last name is not looked up. -/
def walk (files : Files) (directory : Index) : List Name → Except Problem Place
  | [] => .ok (.dots directory)
  | name :: names =>
    if name = dot then walk files directory names
    else if name = dotDot then walk files (files.parent directory) names
    else if names = [] then .ok (.entry directory name)
    else
      match files.lookUp directory name with
      | .error problem => .error problem
      | .ok none => .error .missing
      | .ok (some (.file _)) => .error .notDirectory
      | .ok (some (.directory next)) => walk files next names

def origin (files : Files) (path : String) : Index :=
  if isAbsolute path then 0 else files.current

def locate (files : Files) (path : String) : Except Problem Place :=
  if '\x00' ∈ path.toList then .error .nulInPath
  else if longestPath < Text.size path.toList then .error .nameTooLong
  else if path = "" then .error .missing
  else files.walk (files.origin path) (Path.ofText path).names

/-- Whether a path ends in a slash, and so can only mean a directory. -/
def meansDirectory (path : String) : Bool := path.toList.getLast? = some '/'

def find (files : Files) (path : String) : Except Problem (Location × Node) := do
  match ← files.locate path with
  | .dots directory => return (files.location directory, .directory directory)
  | .entry directory name =>
    let location := files.location directory ++ [name]
    match ← files.lookUp directory name with
    | none => throw .missing
    | some (.file content) =>
      if meansDirectory path then throw .notDirectory else return (location, .file content)
    | some (.directory index) => return (location, .directory index)

def contains (files : Files) (path : String) : Bool := (files.find path).isOk

def hasDirectory (files : Files) (path : String) : Bool :=
  match files.find path with
  | .ok (_, .directory _) => true
  | _ => false

def content? (files : Files) (path : String) : Option Content :=
  match files.find path with
  | .ok (_, .file content) => some content
  | _ => none

def read (files : Files) (path : String) : Except Problem String := do
  match ← files.find path with
  | (_, .file (.text s)) => return s
  | (_, .file _) => throw .notText
  | (_, .directory _) => throw .isDirectory

/-- The tree with a file where a path leads, in place of any file that stood there. A path that
means a directory is refused before its last name is looked up. -/
def write (files : Files) (path : String) (content : Content) : Except Problem Files := do
  match ← files.locate path with
  | .dots _ => throw .isDirectory
  | .entry directory name =>
    if meansDirectory path then throw .isDirectory
    match ← files.lookUp directory name with
    | some (.directory _) => throw .isDirectory
    | _ => return files.put directory name (.file content)

def makeDirectory (files : Files) (path : String) : Except Problem Files := do
  match ← files.locate path with
  | .dots _ => throw .occupied
  | .entry directory name =>
    match ← files.lookUp directory name with
    | some _ => throw .occupied
    | none => return files.putDirectory directory name

/-- The tree after the first of some paths, listed with the ones above it behind it, was made a
directory, or the problem in the way. Directories made on the way stay. -/
def makeWithin (files : Files) : List String → Except Problem Unit × Files
  | [] => (.ok (), files)
  | path :: above =>
    let settle (problem : Problem) (files : Files) : Except Problem Unit × Files :=
      (if files.hasDirectory path then .ok () else .error problem, files)
    match files.makeDirectory path with
    | .ok files => (.ok (), files)
    | .error .missing =>
      match makeWithin files above with
      | (.error problem, files) => (.error problem, files)
      | (.ok (), files) =>
        match files.makeDirectory path with
        | .ok files => (.ok (), files)
        | .error problem => settle problem files
    | .error problem => settle problem files

/-- The tree after a directory and the ones above it were made where they were missing, or the
problem in the way. The empty path asks for nothing. -/
def makeAll (files : Files) (path : String) : Except Problem Unit × Files :=
  if path = "" then (.ok (), files)
  else
    let normal := (Path.ofText path).normal
    files.makeWithin (path :: (Path.above normal.absolute normal.names.reverse).map Path.text)

/-- The locations that names lead through from a location, with the one where they end. -/
def stations (location : Location) : List Name → List Location
  | [] => [location]
  | name :: names =>
    let next :=
      if name = dot then location
      else if name = dotDot then location.dropLast
      else location ++ [name]
    location :: stations next names

def absolutePath (location : Location) : String := Path.text ⟨true, location⟩

/-- The bytes of the absolute path of a location: a slash and a name for each name. The root, of
one slash, counts as none. -/
def pathSize (location : Location) : Nat := Text.size (location.flatMap ('/' :: ·))

/-- The absolute path, without references by dots, of what a path leads to. It is found step by
step, and no step may come to a path that is too long. -/
def canonical (files : Files) (path : String) : Except Problem String := do
  let (location, _) ← files.find path
  let way := stations (files.location (files.origin path)) (Path.ofText path).names
  if way.any fun station => longestPath < pathSize station then throw .nameTooLong
  return absolutePath location

def names (files : Files) (path : String) : List Name :=
  match files.find path with
  | .ok (_, .directory index) => (files.entries index).map (·.1)
  | _ => []

end PhotoCapture.Files
