import PhotoCapture.Json.Text

namespace PhotoCapture.Json

inductive Value where
  | null
  | boolean (b : Bool)
  | integer (n : Int)
  | real (x : Double)
  | text (cs : List Char)
  | list (elements : List Value)
  | object (members : List (List Char × Value))

/-- A number of 64-bit arithmetic as a value; numbers that are not finite are null. -/
def Value.ofDouble (x : Double) : Value := if x.isFinite then .real x else .null

def separate (separator : List Char) : List (List Char) → List Char
  | [] => []
  | [x] => x
  | x :: xs => x ++ separator ++ separate separator xs

def Value.scalar : Value → List Char
  | boolean b => if b then "true".toList else "false".toList
  | integer n => Numeral.signed n
  | real x => (x.text numberLayout).toList
  | text cs => writeText cs
  | _ => "null".toList

mutual

def Value.compact : Value → List Char
  | .list elements => '[' :: separate [','] (compactList elements) ++ [']']
  | .object members => '\x7b' :: separate [','] (compactMembers members) ++ ['\x7d']
  | v => v.scalar

def compactList : List Value → List (List Char)
  | [] => []
  | v :: vs => v.compact :: compactList vs

def compactMembers : List (List Char × Value) → List (List Char)
  | [] => []
  | (key, v) :: rest => (writeText key ++ ':' :: v.compact) :: compactMembers rest

end

def newLine (indent : Nat) : List Char := '\n' :: List.replicate indent ' '

/-- Parts of a list or an object, one to a line; without parts, the brackets alone. -/
def bracketed (opening closing : Char) (indent : Nat) (parts : List (List Char)) : List Char :=
  if parts.isEmpty then [opening, closing]
  else
    opening :: newLine (indent + 2) ++ separate (',' :: newLine (indent + 2)) parts ++
      newLine indent ++ [closing]

mutual

/-- A value with one element or member to a line, indented by two for each level. -/
def Value.pretty (indent : Nat) : Value → List Char
  | .list elements => bracketed '[' ']' indent (prettyList (indent + 2) elements)
  | .object members => bracketed '\x7b' '\x7d' indent (prettyMembers (indent + 2) members)
  | v => v.scalar

def prettyList (indent : Nat) : List Value → List (List Char)
  | [] => []
  | v :: vs => v.pretty indent :: prettyList indent vs

def prettyMembers (indent : Nat) : List (List Char × Value) → List (List Char)
  | [] => []
  | (key, v) :: rest => (writeText key ++ ':' :: ' ' :: v.pretty indent) :: prettyMembers indent rest

end

end PhotoCapture.Json
