import PhotoCapture.Json.Fault

namespace PhotoCapture.Json

attribute [local instance (high)] instPowNat

/-- A number that was read. Whole numbers of 64 bits are exact. Any other number is a significand of
at most 64 bits, whose further digits only count, scaled by powers of ten in 64-bit arithmetic. -/
inductive Number where
  | whole (n : Int)
  | real (x : Double)

def greatestSignificand : Nat := UInt64.size - 1

/-- The significand with the digits that it has room for, and the count of those left over. -/
def addDigits (significand : Nat) : List Char → Nat × Nat
  | [] => (significand, 0)
  | c :: cs =>
    let next := 10 * significand + Numeral.digitValue c
    if next ≤ greatestSignificand then addDigits next cs else (significand, cs.length + 1)

/-- A number times a power of ten, in steps that 64-bit numbers hold; nothing if it grows beyond
them. -/
def scaleByTen? (x : Double) (exponent : Int) : Option Double :=
  if exponent.natAbs ≤ 308 then
    let power : Double := .ofNat (10 ^ exponent.natAbs)
    if 0 ≤ exponent then
      let y := x * power
      if y.isFinite then some y else none
    else some (x / power)
  else if x.equals 0 then some x
  else if 0 ≤ exponent then none
  else scaleByTen? (x / .ofNat (10 ^ (308 : Nat))) (exponent + 308)
termination_by (-exponent).toNat
decreasing_by omega

def realNumber (negative : Bool) (significand : Nat) (exponent : Int) (rest : List Char) :
    Except Fault (Number × List Char) :=
  match scaleByTen? (.ofNat significand) exponent with
  | some x => .ok (.real (if negative then -x else x), rest)
  | none => stop rest .numberOutOfRange

def greatestExponent : Nat := Int32.maxValue.toInt.toNat

/-- The exponent in a run of digits; with none, what follows the digit that made it too
great. -/
def readExponentDigits (exponent : Nat) : List Char → Except (List Char) (Nat × List Char)
  | [] => .ok (exponent, [])
  | c :: cs =>
    if c.isDigit then
      let next := 10 * exponent + Numeral.digitValue c
      if next ≤ greatestExponent then readExponentDigits next cs else .error cs
    else .ok (exponent, c :: cs)

def readExponent (negative : Bool) (significand : Nat) (exponent : Int) (cs : List Char) :
    Except Fault (Number × List Char) :=
  let (down, cs) :=
    match cs with
    | '+' :: more => (false, more)
    | '-' :: more => (true, more)
    | _ => (false, cs)
  match cs with
  | [] => stop [] .endOfValue
  | c :: _ =>
    if c.isDigit then
      match readExponentDigits 0 cs with
      | .ok (n, rest) =>
        realNumber negative significand (if down then exponent - n else exponent + n) rest
      | .error rest =>
        if significand ≠ 0 ∧ ¬down then stop rest .numberOutOfRange
        else .ok (.real (Binary.ofRank negative 0), rest.dropWhile Char.isDigit)
    else stopAt cs .invalidNumber

def readFraction (negative : Bool) (significand : Nat) (exponent : Int) (cs : List Char) :
    Except Fault (Number × List Char) :=
  let (written, rest) := Numeral.takeDigits cs
  if written.isEmpty then
    match rest with
    | [] => stop [] .endOfValue
    | _ => stopAt rest .invalidNumber
  else
    let (significand, left) := addDigits significand written
    let exponent := exponent - (written.length - left : Nat)
    match rest with
    | c :: more =>
      if c = 'e' ∨ c = 'E' then readExponent negative significand exponent more
      else realNumber negative significand exponent rest
    | [] => realNumber negative significand exponent rest

/-- A whole number as it stands: exact in 64 bits, and otherwise real, the negative zero
included. -/
def wholeNumber (negative : Bool) (n : Nat) : Number :=
  if negative then
    if 0 < n ∧ Int64.minValue.toInt ≤ -n then .whole (-n) else .real (-(Binary.ofNat n))
  else .whole n

def readNumber (negative : Bool) (cs : List Char) : Except Fault (Number × List Char) :=
  let (written, rest) := Numeral.takeDigits cs
  match written with
  | [] =>
    match rest with
    | [] => stop [] .endOfValue
    | _ => stopAt rest .invalidNumber
  | first :: others =>
    if first = '0' ∧ ¬others.isEmpty then stopAt (others ++ rest) .invalidNumber
    else
      let (significand, left) := addDigits 0 written
      match rest with
      | '.' :: more => readFraction negative significand left more
      | c :: more =>
        if c = 'e' ∨ c = 'E' then readExponent negative significand left more
        else if left = 0 then .ok (wholeNumber negative significand, rest)
        else realNumber negative significand left rest
      | [] =>
        if left = 0 then .ok (wholeNumber negative significand, rest)
        else realNumber negative significand left rest

def skipExponent (cs : List Char) : Except Fault (List Char) :=
  let cs :=
    match cs with
    | '+' :: more => more
    | '-' :: more => more
    | _ => cs
  match cs with
  | [] => stop [] .invalidNumber
  | c :: _ => if c.isDigit then .ok (cs.dropWhile Char.isDigit) else stopAt cs .invalidNumber

def skipNumber (cs : List Char) : Except Fault (List Char) :=
  let (written, rest) := Numeral.takeDigits cs
  match written with
  | [] => stopAt rest .invalidNumber
  | first :: others =>
    if first = '0' ∧ ¬others.isEmpty then stopAt (others ++ rest) .invalidNumber
    else
      let afterFraction :=
        match rest with
        | '.' :: more =>
          let (decimals, after) := Numeral.takeDigits more
          if decimals.isEmpty then stopAt after .invalidNumber else .ok after
        | _ => .ok rest
      afterFraction >>= fun rest =>
        match rest with
        | c :: more => if c = 'e' ∨ c = 'E' then skipExponent more else .ok rest
        | [] => .ok rest

end PhotoCapture.Json
