import PhotoCapture.Text.Numeral

namespace PhotoCapture.Markup

/-- The number that digits of a base write; there is at least one. -/
def numberIn? (base : Nat) (digitValue? : Char → Option Nat) : List Char → Option Nat
  | [] => none
  | cs => cs.foldlM (fun n c => (digitValue? c).map (base * n + ·)) 0

/-- The character with a code; the code zero names none. -/
def characterOf? (code : Nat) : Option Char :=
  if h : code.isValidChar then if code = 0 then none else some (Char.ofNatAux code h) else none

/-- The character that a reference names, by one of five names or by its code in decimal or, after
an `x`, in hexadecimal. -/
def referent? (cs : List Char) : Option Char :=
  match cs with
  | '#' :: 'x' :: digits => numberIn? 16 Numeral.hexValue? digits >>= characterOf?
  | '#' :: digits =>
    numberIn? 10 (fun c => if c.isDigit then some (Numeral.digitValue c) else none) digits >>=
      characterOf?
  | _ =>
    if cs = "lt".toList then some '<'
    else if cs = "gt".toList then some '>'
    else if cs = "amp".toList then some '&'
    else if cs = "apos".toList then some '\x27'
    else if cs = "quot".toList then some '"'
    else none

/-- A value with its references replaced. The argument `reference` holds the characters of an
open reference, the last one first. -/
def replaceReferences? (reference : Option (List Char)) : List Char → Option (List Char)
  | [] => if reference.isNone then some [] else none
  | c :: cs =>
    match reference with
    | none =>
      if c = '&' then replaceReferences? (some []) cs
      else (replaceReferences? none cs).map (c :: ·)
    | some name =>
      if c = '&' then none
      else if c = ';' then do
        let character ← referent? name.reverse
        let rest ← replaceReferences? none cs
        return character :: rest
      else replaceReferences? (some (c :: name)) cs

/-- A value with its references replaced, unless one of them names no character. An ampersand starts
a reference that the next semicolon ends, with no other ampersand between them. -/
def unescape? (cs : List Char) : Option (List Char) := replaceReferences? none cs

end PhotoCapture.Markup
