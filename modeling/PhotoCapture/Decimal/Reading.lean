import PhotoCapture.Binary.Basic
import PhotoCapture.Text.Numeral

namespace PhotoCapture.Decimal

/-- The digits of a number text, before and after its point, and what follows them. There is
at least one digit. -/
def takeMantissa? (cs : List Char) : Option (Nat × Nat × List Char) :=
  let (whole, rest) := Numeral.takeDigits cs
  let (fraction, rest) :=
    match rest with
    | '.' :: more => Numeral.takeDigits more
    | _ => ([], rest)
  if whole.isEmpty ∧ fraction.isEmpty then none
  else some (Numeral.value (whole ++ fraction), fraction.length, rest)

/-- The exponent that ends a number text; a text without one has the exponent zero. -/
def exponent? (cs : List Char) : Option Int :=
  match cs with
  | [] => some 0
  | c :: rest =>
    if c = 'e' ∨ c = 'E' then
      let (negative, written) :=
        match rest with
        | '-' :: more => (true, more)
        | '+' :: more => (false, more)
        | _ => (false, rest)
      if written.isEmpty ∨ ¬written.all Char.isDigit then none
      else
        let magnitude : Int := Numeral.value written
        some (if negative then -magnitude else magnitude)
    else none

end PhotoCapture.Decimal

namespace PhotoCapture.Binary

attribute [local instance (high)] instPowNat

variable {f : Format}

/-- The number nearest to a signed decimal with an exponent of any size. Leading digits far
beyond the exponent range of the format settle the result alone. -/
def ofScientific (negative : Bool) (digits : Nat) (exponent : Int) : Binary f :=
  let leading := exponent + Numeral.width digits
  let reach : Int := 2 ^ f.exponentBits
  if digits = 0 ∨ leading < -reach then ofRank negative 0
  else if reach < leading then infinite negative
  else ofDecimal negative digits exponent

def ofUnsigned? (negative : Bool) (cs : List Char) : Option (Binary f) :=
  let lower := cs.map Char.toLower
  if lower = "inf".toList ∨ lower = "infinity".toList then some (infinite negative)
  else if lower = "nan".toList then some nan
  else do
    let (digits, places, rest) ← Decimal.takeMantissa? cs
    let exponent ← Decimal.exponent? rest
    return ofScientific negative digits (exponent - places)

/-- The number that a text writes, if it writes one: an optional sign, and then the name of an
infinity or of not-a-number in any case, or digits with an optional point and an optional exponent.
-/
def ofText? : List Char → Option (Binary f)
  | '-' :: rest => ofUnsigned? true rest
  | '+' :: rest => ofUnsigned? false rest
  | cs => ofUnsigned? false cs

end PhotoCapture.Binary
