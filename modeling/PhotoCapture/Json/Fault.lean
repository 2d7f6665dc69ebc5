import PhotoCapture.Decimal.Layout
import PhotoCapture.Text.Quoted
import PhotoCapture.Text.Size

namespace PhotoCapture.Json

/-- How numbers are written in JSON: at least one decimal, and an exponent only for a leading
digit below the fifth decimal place or above the sixteenth place of the whole part. -/
def numberLayout : Decimal.Layout := ⟨.toEven, some (-5, 15), ['.', '0']⟩

/-- A value in a place where another kind of value is expected. -/
inductive Found where
  | null
  | boolean (b : Bool)
  | integer (n : Int)
  | real (x : Double)
  | text (cs : List Char)
  | list
  | object

def Found.message : Found → String
  | null => "null"
  | boolean b => "boolean `" ++ (if b then "true" else "false") ++ "`"
  | integer n => "integer `" ++ String.ofList (Numeral.signed n) ++ "`"
  | real x => "floating point `" ++ x.text numberLayout ++ "`"
  | text cs => "string " ++ Text.quoted (String.ofList cs)
  | list => "sequence"
  | object => "map"

inductive Cause where
  | endOfValue
  | endOfText
  | endOfList
  | endOfObject
  | expectedColon
  | expectedListEnd
  | expectedObjectEnd
  | expectedWord
  | expectedValue
  | invalidEscape
  | unfinishedEscape
  | loneSurrogate
  | controlCharacter
  | invalidNumber
  | numberOutOfRange
  | keyNotText
  | trailingComma
  | trailingCharacters
  | wrongType (found : Found) (expected : String)
  | wrongValue (found : Found) (expected : String)
  | unknownVariant (name : List Char) (known : List String)
  | duplicateField (name : String)

def oneOf (names : List String) : String :=
  let ticked := names.map fun n => "`" ++ n ++ "`"
  match ticked with
  | [a, b] => a ++ " or " ++ b
  | [a] => a
  | _ => "one of " ++ ", ".intercalate ticked

def Cause.message : Cause → String
  | endOfValue => "EOF while parsing a value"
  | endOfText => "EOF while parsing a string"
  | endOfList => "EOF while parsing a list"
  | endOfObject => "EOF while parsing an object"
  | expectedColon => "expected `:`"
  | expectedListEnd => "expected `,` or `]`"
  | expectedObjectEnd => "expected `,` or `\x7d`"
  | expectedWord => "expected ident"
  | expectedValue => "expected value"
  | invalidEscape => "invalid escape"
  | unfinishedEscape => "unexpected end of hex escape"
  | loneSurrogate => "lone leading surrogate in hex escape"
  | controlCharacter => "control character (\\u0000-\\u001F) found while parsing a string"
  | invalidNumber => "invalid number"
  | numberOutOfRange => "number out of range"
  | keyNotText => "key must be a string"
  | trailingComma => "trailing comma"
  | trailingCharacters => "trailing characters"
  | wrongType found expected => "invalid type: " ++ found.message ++ ", expected " ++ expected
  | wrongValue found expected => "invalid value: " ++ found.message ++ ", expected " ++ expected
  | unknownVariant name known =>
    "unknown variant `" ++ String.ofList name ++ "`, expected " ++ oneOf known
  | duplicateField name => "duplicate field `" ++ name ++ "`"

/-- A cause, and the bytes of the text that stand behind the place of the fault. -/
structure Fault where
  cause : Cause
  left : Nat

/-- A fault in front of the text that remains. -/
def stop {α : Type} (cs : List Char) (cause : Cause) : Except Fault α := .error ⟨cause, Text.size cs⟩

/-- A fault at the first byte of the text that remains, or at its end. -/
def stopAt {α : Type} (cs : List Char) (cause : Cause) : Except Fault α :=
  .error ⟨cause, Text.size cs - 1⟩

/-- A place in a text, as lines from one and bytes of the line. -/
structure Position where
  line : Nat
  column : Nat
deriving DecidableEq

def Position.advance (p : Position) : Nat → List Char → Position
  | 0, _ => p
  | _, [] => p
  | n, c :: cs =>
    if c = '\n' then advance ⟨p.line + 1, 0⟩ (n - 1) cs
    else if c.utf8Size ≤ n then advance ⟨p.line, p.column + c.utf8Size⟩ (n - c.utf8Size) cs
    else ⟨p.line, p.column + n⟩

def Fault.message (f : Fault) (text : List Char) : String :=
  let place := Position.advance ⟨1, 0⟩ (Text.size text - f.left) text
  f.cause.message ++ " at line " ++ String.ofList (Numeral.digits place.line) ++ " column " ++
    String.ofList (Numeral.digits place.column)

end PhotoCapture.Json
