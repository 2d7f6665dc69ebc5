import PhotoCapture.Text.Size

namespace PhotoCapture.Files

abbrev Name := List Char

def dot : Name := ['.']

def dotDot : Name := ['.', '.']

structure Path where
  absolute : Bool
  names : List Name
deriving DecidableEq

/-- The runs between slashes. -/
def runs : List Char → List Name
  | [] => [[]]
  | c :: cs =>
    if c = '/' then [] :: runs cs
    else
      match runs cs with
      | [] => [[c]]
      | name :: names => (c :: name) :: names

def joined : List Name → List Char
  | [] => []
  | [name] => name
  | name :: names => name ++ '/' :: joined names

namespace Path

def ofText (text : String) : Path :=
  ⟨text.toList.head? = some '/', (runs text.toList).filter (· ≠ [])⟩

def text (path : Path) : String :=
  String.ofList ((if path.absolute then ['/'] else []) ++ joined path.names)

/-- A path without references of a directory to itself, but for one at the start. -/
def normal (path : Path) : Path :=
  match path.absolute, path.names with
  | false, ['.'] :: names => ⟨false, dot :: names.filter (· ≠ dot)⟩
  | absolute, names => ⟨absolute, names.filter (· ≠ dot)⟩

def parent? (path : Path) : Option Path :=
  match path.normal.names with
  | [] => none
  | names => some ⟨path.absolute, names.dropLast⟩

/-- The paths to the directories above the names that are listed from the last to the first, the
longest first; the directory where the path starts is not among them. -/
def above (absolute : Bool) : List Name → List Path
  | [] => []
  | [_] => []
  | _ :: rest => ⟨absolute, rest.reverse⟩ :: above absolute rest

end Path

def parent? (text : String) : Option String := (Path.ofText text).parent?.map Path.text

/-- A path followed by a further one; an absolute one replaces it. -/
def join (directory path : String) : String :=
  if path.toList.head? = some '/' ∨ directory = "" then path
  else if directory.toList.getLast? = some '/' then directory ++ path
  else directory ++ "/" ++ path

def isAbsolute (path : String) : Bool := (Path.ofText path).absolute

end PhotoCapture.Files
