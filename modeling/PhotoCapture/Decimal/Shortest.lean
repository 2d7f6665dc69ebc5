import PhotoCapture.Binary.Basic
import PhotoCapture.Text.Numeral

namespace PhotoCapture

attribute [local instance (high)] instPowNat

/-- A non-negative decimal, `digits * 10 ^ exponent`. -/
structure Decimal where
  digits : Nat
  exponent : Int
deriving DecidableEq

namespace Decimal

inductive Tie where
  | toEven
  | up
deriving DecidableEq

/-- An interval of non-negative reals around a point, in multiples of `1 / denominator`. -/
structure Interval where
  low : Nat
  point : Nat
  high : Nat
  denominator : Nat
  closed : Bool

/-- The exponent of the leading decimal digit of a positive quotient. -/
def leadingExponent (numerator denominator : Nat) : Int :=
  if denominator ≤ numerator then (Numeral.width (numerator / denominator) : Int) - 1
  else -(Numeral.width ((denominator - 1) / numerator) : Int)

namespace Interval

/-- The reals that round to a positive finite magnitude. Its ends lie half-way to the
neighbouring ranks and belong to it when the rank is even. -/
def ofRank (f : Binary.Format) (rank : Nat) : Interval :=
  let up := 2 ^ (f.unitExponent - 1).toNat
  ⟨(f.units (rank - 1) + f.units rank) * up, 2 * f.units rank * up,
    (f.units rank + f.units (rank + 1)) * up, 2 ^ (1 - f.unitExponent).toNat, rank % 2 = 0⟩

def holds (i : Interval) (d : Decimal) : Bool :=
  let x := d.digits * 10 ^ d.exponent.toNat * i.denominator
  let unit := 10 ^ (-d.exponent).toNat
  if i.closed then decide (i.low * unit ≤ x ∧ x ≤ i.high * unit)
  else decide (i.low * unit < x ∧ x < i.high * unit)

/-- The neighbour of the point in the interval on the decimal grid of an exponent. -/
def neighbour? (i : Interval) (tie : Tie) (exponent : Int) : Option Decimal :=
  let numerator := i.point * 10 ^ (-exponent).toNat
  let step := i.denominator * 10 ^ exponent.toNat
  let below : Decimal := ⟨numerator / step, exponent⟩
  let above : Decimal := ⟨numerator / step + 1, exponent⟩
  match i.holds below, i.holds above with
  | false, false => none
  | true, false => some below
  | false, true => some above
  | true, true =>
    let twice := 2 * (numerator % step)
    if twice < step then some below
    else if step < twice then some above
    else if tie = .toEven ∧ below.digits % 2 = 0 then some below
    else some above

/-- The neighbour on the coarsest grid that has one in the interval. Seventeen digits set
the magnitudes of the formats here apart. -/
def shortest (i : Interval) (tie : Tie) : Decimal :=
  let leading := leadingExponent i.point i.denominator
  ((List.range 17).findSome? fun more => i.neighbour? tie (leading - (more : Nat))).getD
    ⟨i.point, 0⟩

end Interval

def trim (d : Decimal) : Decimal :=
  if h : d.digits ≠ 0 ∧ d.digits % 10 = 0 then trim ⟨d.digits / 10, d.exponent + 1⟩ else d
termination_by d.digits
decreasing_by omega

/-- The shortest decimal of a finite magnitude: of all that read back as it, one with the fewest
digits, and of those the nearest. -/
def shortest (f : Binary.Format) (tie : Tie) (rank : Nat) : Decimal :=
  if rank = 0 then ⟨0, 0⟩ else ((Interval.ofRank f rank).shortest tie).trim

end Decimal

end PhotoCapture
