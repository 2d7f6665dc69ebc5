import PhotoCapture.Binary.Format

namespace PhotoCapture

attribute [local instance (high)] instPowNat

/-- A floating-point number: not a number, or a sign and the rank of a magnitude. -/
inductive Binary (f : Binary.Format) where
  | nan
  | number (negative : Bool) (rank : Fin (f.infinity + 1))
deriving DecidableEq

abbrev Single := Binary .single

abbrev Double := Binary .double

namespace Binary

variable {f : Format}

/-- The number with a sign and a magnitude's rank; ranks beyond infinity's stand for it. -/
def ofRank (negative : Bool) (rank : Nat) : Binary f :=
  .number negative ⟨min rank f.infinity, Nat.lt_succ_of_le (Nat.min_le_right _ _)⟩

/-- The number nearest to a signed `numerator / denominator * 2 ^ exponent` units. -/
def ofQuotient (negative : Bool) (numerator denominator : Nat) (exponent : Int) : Binary f :=
  ofRank negative (f.nearest numerator denominator exponent)

def ofNat (n : Nat) : Binary f := ofQuotient false n 1 (-f.unitExponent)

def ofDecimal (negative : Bool) (digits : Nat) (exponent : Int) : Binary f :=
  ofQuotient negative (digits * 10 ^ exponent.toNat) (10 ^ (-exponent).toNat) (-f.unitExponent)

def zero : Binary f := ofRank false 0

def infinite (negative : Bool) : Binary f := ofRank negative f.infinity

instance : Inhabited (Binary f) := ⟨zero⟩

instance : Zero (Binary f) := ⟨zero⟩

instance : One (Binary f) := ⟨ofRank false f.one⟩

instance : OfScientific (Binary f) where
  ofScientific digits negativeExponent exponent :=
    ofDecimal false digits (if negativeExponent then -(exponent : Int) else exponent)

def isFinite : Binary f → Bool
  | nan => false
  | number _ rank => decide (rank.val < f.infinity)

def isNan : Binary f → Bool
  | nan => true
  | number .. => false

def toBits : Binary f → Nat
  | nan => f.infinity + f.leading / 2
  | number negative rank => if negative then rank.val + f.signWeight else rank.val

def ofBits (word : Nat) : Binary f :=
  let rank := word % f.signWeight
  if f.infinity < rank then nan else ofRank (word / f.signWeight % 2 = 1) rank

/-- The place of a number in the order from negative to positive infinity, with the two zeros
at one place; not-a-number has none. -/
def place : Binary f → Option Int
  | nan => none
  | number negative rank => some (if negative then -(rank.val : Int) else rank.val)

def ble (x y : Binary f) : Bool :=
  match x.place, y.place with
  | some a, some b => decide (a ≤ b)
  | _, _ => false

def blt (x y : Binary f) : Bool :=
  match x.place, y.place with
  | some a, some b => decide (a < b)
  | _, _ => false

instance : LE (Binary f) := ⟨fun x y => ble x y = true⟩

instance : LT (Binary f) := ⟨fun x y => blt x y = true⟩

instance (x y : Binary f) : Decidable (x ≤ y) := inferInstanceAs (Decidable (ble x y = true))

instance (x y : Binary f) : Decidable (x < y) := inferInstanceAs (Decidable (blt x y = true))

/-- Equal as numbers: the two zeros are, and not-a-number is equal to nothing. -/
def equals (x y : Binary f) : Bool :=
  match x.place, y.place with
  | some a, some b => decide (a = b)
  | _, _ => false

def neg : Binary f → Binary f
  | nan => nan
  | number negative rank => number (!negative) rank

def abs : Binary f → Binary f
  | nan => nan
  | number _ rank => number false rank

/-- The sum of two finite numbers. A sum of opposite numbers is the positive zero. -/
def addFinite (negative₁ : Bool) (rank₁ : Nat) (negative₂ : Bool) (rank₂ : Nat) : Binary f :=
  let base := min (f.scale rank₁) (f.scale rank₂)
  let a := Format.scaleUp (f.significand rank₁) (f.scale rank₁ - base)
  let b := Format.scaleUp (f.significand rank₂) (f.scale rank₂ - base)
  if negative₁ = negative₂ then ofQuotient negative₁ (a + b) 1 base
  else if a = b then zero
  else if b < a then ofQuotient negative₁ (a - b) 1 base
  else ofQuotient negative₂ (b - a) 1 base

def add : Binary f → Binary f → Binary f
  | number negative₁ rank₁, number negative₂ rank₂ =>
    if rank₁.val = f.infinity then
      if rank₂.val = f.infinity ∧ negative₁ ≠ negative₂ then nan else number negative₁ rank₁
    else if rank₂.val = f.infinity then number negative₂ rank₂
    else addFinite negative₁ rank₁ negative₂ rank₂
  | _, _ => nan

def sub (x y : Binary f) : Binary f := add x (neg y)

def mul : Binary f → Binary f → Binary f
  | number negative₁ rank₁, number negative₂ rank₂ =>
    let negative := negative₁ != negative₂
    if rank₁.val = f.infinity ∨ rank₂.val = f.infinity then
      if rank₁.val = 0 ∨ rank₂.val = 0 then nan else infinite negative
    else
      ofQuotient negative (f.significand rank₁ * f.significand rank₂) 1
        (f.scale rank₁ + f.scale rank₂ + f.unitExponent)
  | _, _ => nan

def div : Binary f → Binary f → Binary f
  | number negative₁ rank₁, number negative₂ rank₂ =>
    let negative := negative₁ != negative₂
    if rank₁.val = f.infinity then
      if rank₂.val = f.infinity then nan else infinite negative
    else if rank₂.val = f.infinity then ofRank negative 0
    else if rank₂.val = 0 then
      if rank₁.val = 0 then nan else infinite negative
    else
      ofQuotient negative (f.significand rank₁) (f.significand rank₂)
        (f.scale rank₁ - f.scale rank₂ - f.unitExponent)
  | _, _ => nan

/-- The square root of a positive finite number. The whole-number root has at least two bits
more than the result keeps, so one further half stands for whatever the root leaves over. -/
def sqrtFinite (rank : Nat) : Binary f :=
  let exponent := (f.scale rank : Int) - f.unitExponent
  let least := 2 * f.fractionBits + 4 - (f.significand rank).log2
  let extra := least + ((exponent - least) % 2).toNat
  let scaled := Format.scaleUp (f.significand rank) extra
  let root := Nat.sqrt scaled
  let rest := if root * root = scaled then 0 else 1
  ofQuotient false (2 * root + rest) 2 ((exponent - extra) / 2)

def sqrt : Binary f → Binary f
  | nan => nan
  | number negative rank =>
    if rank.val = 0 then number negative rank
    else if negative then nan
    else if rank.val = f.infinity then number negative rank
    else sqrtFinite rank

instance : Add (Binary f) := ⟨add⟩

instance : Sub (Binary f) := ⟨sub⟩

instance : Mul (Binary f) := ⟨mul⟩

instance : Div (Binary f) := ⟨div⟩

instance : Neg (Binary f) := ⟨neg⟩

def convert {g : Format} : Binary f → Binary g
  | nan => nan
  | number negative rank =>
    if rank.val = f.infinity then infinite negative
    else ofQuotient negative (f.significand rank) 1
      (f.scale rank + f.unitExponent - g.unitExponent)

/-- A number held between two bounds; not-a-number stays as it is. -/
def clamp (x low high : Binary f) : Binary f :=
  if x < low then low else if high < x then high else x

/-- The larger of two numbers, and the other one where one is not a number. -/
def max (x y : Binary f) : Binary f :=
  if x.isNan then y else if y.isNan ∨ y ≤ x then x else y

/-- The nearest whole number from 0 to 255, a half away from zero; not-a-number gives 0. -/
def toByte : Binary f → UInt8
  | nan => 0
  | number true _ => 0
  | number false rank =>
    if f.infinity ≤ rank.val then 255
    else
      let exponent := (f.scale rank : Int) + f.unitExponent
      let whole :=
        if 0 ≤ exponent then Format.scaleUp (f.significand rank) exponent.toNat
        else (f.significand rank + Format.scaleUp 1 ((-exponent).toNat - 1)) >>> (-exponent).toNat
      UInt8.ofNat (min whole 255)

end Binary

end PhotoCapture
