namespace PhotoCapture

attribute [local instance (high)] instPowNat

/-- The widths of the fraction and exponent fields of a binary floating-point format, and the
numbers that they come to. A magnitude is named by its rank, its place among all magnitudes in
increasing order from zero. -/
structure Binary.Format where
  fractionBits : Nat
  exponentBits : Nat
  /-- The weight of the leading bit, which normal magnitudes leave unwritten. -/
  leading : Nat
  /-- The rank of infinity; the finite magnitudes have the ranks below it. -/
  infinity : Nat
  /-- The binary exponent of the least positive magnitude. -/
  unitExponent : Int
  leading_eq : leading = 2 ^ fractionBits
  infinity_eq : infinity = (2 ^ exponentBits - 1) * leading
  unitExponent_eq : unitExponent = 2 - 2 ^ (exponentBits - 1) - fractionBits

namespace Binary.Format

def ofWidths (fractionBits exponentBits : Nat) : Format where
  fractionBits := fractionBits
  exponentBits := exponentBits
  leading := 2 ^ fractionBits
  infinity := (2 ^ exponentBits - 1) * 2 ^ fractionBits
  unitExponent := 2 - 2 ^ (exponentBits - 1) - fractionBits
  leading_eq := rfl
  infinity_eq := rfl
  unitExponent_eq := rfl

def single : Format := ofWidths 23 8

def double : Format := ofWidths 52 11

def one (f : Format) : Nat := (2 ^ (f.exponentBits - 1) - 1) * f.leading

/-- The weight of the sign bit in a word; infinity and the fractions behind it stand below. -/
def signWeight (f : Format) : Nat := f.infinity + f.leading

def scaleUp (n places : Nat) : Nat := if places = 0 then n else n <<< places

/-- The whole-number part of a magnitude: its fraction field, with the leading bit of normal
magnitudes. -/
def significand (f : Format) (rank : Nat) : Nat :=
  let fraction := rank % f.leading
  if rank < f.leading then fraction else fraction + f.leading

/-- The power of two that scales the significand, counted from the least magnitude. -/
def scale (f : Format) (rank : Nat) : Nat := rank >>> f.fractionBits - 1

def units (f : Format) (rank : Nat) : Nat := scaleUp (f.significand rank) (f.scale rank)

/-- The exponent `k` with `2 ^ k ≤ numerator / denominator < 2 ^ (k + 1)`. -/
def floorLog (numerator denominator : Nat) : Int :=
  if denominator = 1 then numerator.log2
  else
    let guess : Int := numerator.log2 - denominator.log2
    if scaleUp denominator guess.toNat ≤ scaleUp numerator (-guess).toNat then guess
    else guess - 1

def roundHalfEven (numerator denominator : Nat) : Nat :=
  let quotient := numerator / denominator
  let twice := 2 * (numerator % denominator)
  if denominator < twice ∨ denominator = twice ∧ quotient % 2 = 1 then quotient + 1 else quotient

/-- The rank of the magnitude nearest to `numerator / denominator * 2 ^ exponent` units, a
half to the even rank. Within one binade the ranks grow as the multiples of its spacing do, so
a quotient that rounds up to the next binade needs no case of its own. -/
def nearest (f : Format) (numerator denominator : Nat) (exponent : Int) : Nat :=
  if numerator = 0 then 0
  else
    let spacing := (floorLog numerator denominator + exponent - f.fractionBits).toNat
    let shift := (spacing : Int) - exponent
    let steps := roundHalfEven (scaleUp numerator (-shift).toNat) (scaleUp denominator shift.toNat)
    min (steps + spacing * f.leading) f.infinity

end Binary.Format

end PhotoCapture
