import PhotoCapture.Json.Text
import PhotoCapture.Json.Number

namespace PhotoCapture.Json

def isSpace (c : Char) : Bool := c = ' ' || c = '\n' || c = '\t' || c = '\r'

def skipSpace (cs : List Char) : List Char := cs.dropWhile isSpace

def readWord (letters cs : List Char) : Except Fault (List Char) :=
  match letters, cs with
  | [], _ => .ok cs
  | _ :: _, [] => stop [] .endOfValue
  | l :: ls, c :: rest => if c = l then readWord ls rest else stopAt (c :: rest) .expectedWord

def readColon (cs : List Char) : Except Fault (List Char) :=
  match skipSpace cs with
  | ':' :: rest => .ok rest
  | [] => stop [] .endOfObject
  | rest => stopAt rest .expectedColon

inductive Frame where
  | list
  | object
deriving DecidableEq

def Frame.closing : Frame → Char
  | list => ']'
  | object => '\x7d'

def Frame.atEnd : Frame → Cause
  | list => .endOfList
  | object => .endOfObject

def Frame.expectedEnd : Frame → Cause
  | list => .expectedListEnd
  | object => .expectedObjectEnd

/-- What follows the key and the colon of an object's member, or the text itself in a list. -/
def Frame.skipKey (frame : Frame) (cs : List Char) : Except Fault (List Char) :=
  match frame with
  | list => .ok cs
  | object =>
    match skipSpace cs with
    | '"' :: rest => skipText rest >>= readColon
    | [] => stop [] .endOfObject
    | rest => stopAt rest .keyNotText

mutual

/-- What follows a value that is passed over. The number bounds the parts that are read; each
part takes a character of the text. -/
def skipValueWithin : Nat → List Char → Except Fault (List Char)
  | 0, cs => stop cs .endOfValue
  | parts + 1, cs =>
    match skipSpace cs with
    | [] => stop [] .endOfValue
    | 'n' :: rest => readWord "ull".toList rest
    | 't' :: rest => readWord "rue".toList rest
    | 'f' :: rest => readWord "alse".toList rest
    | '-' :: rest => skipNumber rest
    | '"' :: rest => skipText rest
    | '[' :: rest => skipFirst parts .list rest
    | '\x7b' :: rest => skipFirst parts .object rest
    | c :: rest => if c.isDigit then skipNumber (c :: rest) else stopAt (c :: rest) .expectedValue

/-- What follows a list or an object that is passed over, behind its opening bracket. -/
def skipFirst : Nat → Frame → List Char → Except Fault (List Char)
  | 0, frame, cs => stop cs frame.atEnd
  | parts + 1, frame, cs =>
    match skipSpace cs with
    | [] => stop [] frame.atEnd
    | c :: rest => if c = frame.closing then .ok rest else skipOthers parts frame (c :: rest)

def skipOthers : Nat → Frame → List Char → Except Fault (List Char)
  | 0, frame, cs => stop cs frame.atEnd
  | parts + 1, frame, cs => do
    let rest ← frame.skipKey cs
    let rest ← skipValueWithin parts rest
    match skipSpace rest with
    | [] => stop [] frame.atEnd
    | c :: rest =>
      if c = ',' then skipOthers parts frame rest
      else if c = frame.closing then .ok rest
      else stopAt (c :: rest) frame.expectedEnd

end

def skipValue (cs : List Char) : Except Fault (List Char) :=
  skipValueWithin (3 * cs.length + 1) cs

/-- Reads a value at the start of a text, and gives what follows it. -/
abbrev Decoder (α : Type) := List Char → Except Fault (α × List Char)

def Decoder.start {α : Type} (d : Decoder α) : Decoder α := fun cs =>
  match skipSpace cs with
  | [] => stop [] .endOfValue
  | rest => d rest

def mismatch {α : Type} (expected : String) (cs : List Char) : Except Fault α := do
  let wrong (found : Found) (rest : List Char) : Except Fault α :=
    stop rest (.wrongType found expected)
  let wrongNumber (r : Number × List Char) : Except Fault α :=
    match r with
    | (.whole n, rest) => wrong (.integer n) rest
    | (.real x, rest) => wrong (.real x) rest
  match cs with
  | 'n' :: rest => wrong .null (← readWord "ull".toList rest)
  | 't' :: rest => wrong (.boolean true) (← readWord "rue".toList rest)
  | 'f' :: rest => wrong (.boolean false) (← readWord "alse".toList rest)
  | '-' :: rest => wrongNumber (← readNumber true rest)
  | '"' :: rest =>
    let (text, rest) ← readText rest
    wrong (.text text) rest
  | '[' :: _ => wrong .list cs
  | '\x7b' :: _ => wrong .object cs
  | c :: _ =>
    if c.isDigit then wrongNumber (← readNumber false cs) else stopAt cs .expectedValue
  | [] => stop [] .expectedValue

namespace Decoder

variable {α β : Type}

def map (f : α → β) (d : Decoder α) : Decoder β := fun cs =>
  (d cs).map fun (x, rest) => (f x, rest)

def text (expected : String) : Decoder String := start fun cs =>
  match cs with
  | '"' :: rest => (readText rest).map fun (xs, rest) => (String.ofList xs, rest)
  | _ => mismatch expected cs

def number (expected : String) : Decoder Number := start fun cs =>
  match cs with
  | '-' :: rest => readNumber true rest
  | c :: _ => if c.isDigit then readNumber false cs else mismatch expected cs
  | [] => mismatch expected cs

def integer (expected : String) (least greatest : Int) : Decoder Int := fun cs => do
  match ← number expected cs with
  | (.whole n, rest) =>
    if least ≤ n ∧ n ≤ greatest then return (n, rest)
    else stop rest (.wrongValue (.integer n) expected)
  | (.real x, rest) => stop rest (.wrongType (.real x) expected)

def real (expected : String) : Decoder Double := fun cs => do
  match ← number expected cs with
  | (.whole n, rest) => return (if n < 0 then -(Binary.ofNat n.natAbs) else .ofNat n.natAbs, rest)
  | (.real x, rest) => return (x, rest)

def optional (d : Decoder α) : Decoder (Option α) := fun cs =>
  match skipSpace cs with
  | 'n' :: rest => (readWord "ull".toList rest).map fun rest => (none, rest)
  | rest => d.map some rest

def unit : Decoder Unit := start fun cs =>
  match cs with
  | 'n' :: rest => (readWord "ull".toList rest).map fun rest => ((), rest)
  | _ => mismatch "unit" cs

def named (values : List (String × α)) : Decoder α := start fun cs =>
  match cs with
  | '"' :: rest => do
    let (name, rest) ← readText rest
    match values.find? fun v => v.1.toList = name with
    | some (_, x) => return (x, rest)
    | none => stop rest (.unknownVariant name (values.map (·.1)))
  | _ => mismatch "variant identifier" cs

/-- One of some named values, by its name as a text or as the only key of an object that holds
a null. -/
def variant (values : List (String × α)) : Decoder α := start fun cs =>
  match cs with
  | '"' :: _ => named values cs
  | '\x7b' :: rest =>
    match skipSpace rest with
    | '"' :: rest => do
      let (x, rest) ← named values ('"' :: rest)
      let rest ← readColon rest
      let (_, rest) ← unit rest
      match skipSpace rest with
      | '\x7d' :: rest => return (x, rest)
      | [] => stop [] .endOfObject
      | rest => stop rest .expectedValue
    | [] => stop [] .endOfObject
    | '\x7d' :: rest => stopAt ('\x7d' :: rest) .expectedValue
    | rest => stopAt rest .keyNotText
  | _ => stopAt cs .expectedValue

end Decoder

/-- A field of a record: its key, and how its value changes the record. -/
structure Field (α : Type) where
  name : String
  decoder : Decoder (α → α)

def Field.of {α β : Type} (name : String) (d : Decoder β) (set : β → α → α) : Field α :=
  ⟨name, d.map set⟩

section Record

variable {α : Type}

/-- The text behind the mark that opens the next key of an object, or nothing and the text behind
the object. -/
def nextKey (first : Bool) (cs : List Char) : Except Fault (Bool × List Char) :=
  match skipSpace cs with
  | [] => stop [] .endOfObject
  | '\x7d' :: rest => .ok (false, rest)
  | c :: rest =>
    if first then
      if c = '"' then .ok (true, rest) else stopAt (c :: rest) .keyNotText
    else if c = ',' then
      match skipSpace rest with
      | '"' :: rest => .ok (true, rest)
      | '\x7d' :: rest => stopAt ('\x7d' :: rest) .trailingComma
      | [] => stop [] .endOfValue
      | rest => stopAt rest .keyNotText
    else stopAt (c :: rest) .expectedObjectEnd

/-- The text where a repeated key is reported: behind the white space after the key, and behind
a closing bracket that follows at once. -/
def afterRepeatedKey (cs : List Char) : List Char :=
  match skipSpace cs with
  | '\x7d' :: rest => rest
  | rest => rest

/-- The record that the members of an object set, starting from a record, with the keys seen. The
number bounds the members; each takes a character of the text. -/
def readMembers (fields : List (Field α)) :
    Nat → Bool → List String → α → List Char → Except Fault (α × List Char)
  | 0, _, _, _, cs => stop cs .endOfObject
  | members + 1, first, seen, record, cs => do
    match ← nextKey first cs with
    | (false, rest) => return (record, rest)
    | (true, rest) =>
      let (key, rest) ← readText rest
      match fields.find? fun f => f.name.toList = key with
      | none =>
        let rest ← readColon rest
        let rest ← skipValue rest
        readMembers fields members false seen record rest
      | some field =>
        if field.name ∈ seen then stop (afterRepeatedKey rest) (.duplicateField field.name)
        else
          let rest ← readColon rest
          let (set, rest) ← field.decoder rest
          readMembers fields members false (field.name :: seen) (set record) rest

/-- The record that the elements of a list set in the order of the fields, starting from a
record; a short list leaves the later fields as they are. -/
def readElements : List (Field α) → Bool → α → List Char → Except Fault (α × List Char)
  | [], _, record, cs =>
    match skipSpace cs with
    | ']' :: rest => .ok (record, rest)
    | [] => stop [] .endOfList
    | ',' :: rest =>
      match skipSpace rest with
      | ']' :: more => stopAt (']' :: more) .trailingComma
      | rest => stopAt rest .trailingCharacters
    | rest => stopAt rest .trailingCharacters
  | field :: fields, first, record, cs => do
    let next (rest : List Char) : Except Fault (α × List Char) := do
      let (set, rest) ← field.decoder rest
      readElements fields false (set record) rest
    match skipSpace cs with
    | ']' :: rest => return (record, rest)
    | [] => stop [] .endOfList
    | c :: rest =>
      if first then next (c :: rest)
      else if c = ',' then
        match skipSpace rest with
        | ']' :: more => stopAt (']' :: more) .trailingComma
        | [] => stop [] .endOfValue
        | rest => next rest
      else stopAt (c :: rest) .expectedListEnd

/-- A record, from an object with its fields as keys or from a list of its fields in order. Fields
that are left out keep their values in `default`. -/
def Decoder.record (name : String) (fields : List (Field α)) (default : α) : Decoder α :=
  start fun cs =>
    match cs with
    | '\x7b' :: rest => readMembers fields (rest.length + 1) true [] default rest
    | '[' :: rest => readElements fields true default rest
    | _ => mismatch ("struct " ++ name) cs

end Record

def Decoder.decode {α : Type} (d : Decoder α) (text : String) : Except Fault α := do
  let (x, rest) ← d text.toList
  match skipSpace rest with
  | [] => return x
  | rest => stopAt rest .trailingCharacters

end PhotoCapture.Json
