namespace PhotoCapture.Numeral

def digit (d : Nat) : Char := Char.ofNat (48 + d)

def digitValue (c : Char) : Nat := c.toNat - 48

def digits (n : Nat) : List Char :=
  if n < 10 then [digit n] else digits (n / 10) ++ [digit (n % 10)]
termination_by n
decreasing_by omega

def value (cs : List Char) : Nat := cs.foldl (fun n c => 10 * n + digitValue c) 0

def width (n : Nat) : Nat :=
  if n < 10 then 1 else width (n / 10) + 1
termination_by n
decreasing_by omega

def signed (n : Int) : List Char :=
  if n < 0 then '-' :: digits n.natAbs else digits n.natAbs

def padStart (c : Char) (least : Nat) (cs : List Char) : List Char :=
  List.replicate (least - cs.length) c ++ cs

def padded (least n : Nat) : List Char := padStart '0' least (digits n)

def hexValue? (c : Char) : Option Nat :=
  if c.isDigit then some (digitValue c)
  else if 'a' ≤ c ∧ c ≤ 'f' then some (c.toNat - 'a'.toNat + 10)
  else if 'A' ≤ c ∧ c ≤ 'F' then some (c.toNat - 'A'.toNat + 10)
  else none

/-- A longest run of digits at the start of a text, and what follows it. -/
def takeDigits (cs : List Char) : List Char × List Char :=
  (cs.takeWhile Char.isDigit, cs.dropWhile Char.isDigit)

end PhotoCapture.Numeral
