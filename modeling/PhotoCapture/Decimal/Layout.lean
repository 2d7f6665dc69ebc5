import PhotoCapture.Decimal.Shortest

namespace PhotoCapture.Decimal

attribute [local instance (high)] instPowNat

/-- The decisions of one kind of number text. -/
structure Layout where
  /-- How an exact tie between two shortest decimals goes. -/
  tie : Tie
  /-- The exponents of the leading digit that are written out in full; all without a range. -/
  positional : Option (Int × Int)
  /-- What follows the digits of a whole number that is written out in full. -/
  wholeEnd : List Char

/-- Numbers in messages: always written out in full, and a whole number bare. -/
def Layout.plain : Layout := ⟨.up, none, []⟩

def positional (wholeEnd : List Char) (d : Decimal) : List Char :=
  if 0 ≤ d.exponent then
    Numeral.digits (d.digits * 10 ^ d.exponent.toNat) ++ wholeEnd
  else
    let places := (-d.exponent).toNat
    let written := Numeral.padded (places + 1) d.digits
    written.take (written.length - places) ++ '.' :: written.drop (written.length - places)

def scientific (d : Decimal) : List Char :=
  let written := Numeral.digits d.digits
  let exponent := d.exponent + written.length - 1
  let fraction := if written.length = 1 then [] else '.' :: written.drop 1
  written.take 1 ++ fraction ++ 'e' :: (if exponent < 0 then '-' else '+') ::
    Numeral.digits exponent.natAbs

def Layout.write (l : Layout) (d : Decimal) : List Char :=
  match l.positional with
  | none => d.positional l.wholeEnd
  | some (least, greatest) =>
    let leading := d.exponent + Numeral.width d.digits - 1
    if d.digits = 0 ∨ least ≤ leading ∧ leading ≤ greatest then d.positional l.wholeEnd
    else d.scientific

/-- A minus sign for negative numbers, the negative zero among them. -/
def signText (negative : Bool) : List Char := if negative then ['-'] else []

end PhotoCapture.Decimal

namespace PhotoCapture.Binary

attribute [local instance (high)] instPowNat

variable {f : Format}

def text (l : Decimal.Layout) : Binary f → String
  | nan => "NaN"
  | number negative rank =>
    String.ofList (Decimal.signText negative ++
      if rank.val = f.infinity then ['i', 'n', 'f']
      else l.write (Decimal.shortest f l.tie rank.val))

/-- A number with a fixed count of decimal places, its exact value rounded half to even. -/
def fixedText (places : Nat) : Binary f → List Char
  | nan => ['N', 'a', 'N']
  | number negative rank =>
    Decimal.signText negative ++
      if rank.val = f.infinity then ['i', 'n', 'f']
      else
        let numerator := f.units rank.val * 10 ^ places * 2 ^ f.unitExponent.toNat
        let rounded := Format.roundHalfEven numerator (2 ^ (-f.unitExponent).toNat)
        (Decimal.mk rounded (-(places : Int))).positional []

end PhotoCapture.Binary
