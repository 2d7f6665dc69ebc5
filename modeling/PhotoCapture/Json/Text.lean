import PhotoCapture.Json.Fault

namespace PhotoCapture.Json

def escapeChar (c : Char) : List Char :=
  if c = '"' then ['\\', '"']
  else if c = '\\' then ['\\', '\\']
  else if c = '\x08' then ['\\', 'b']
  else if c = '\x0c' then ['\\', 'f']
  else if c = '\n' then ['\\', 'n']
  else if c = '\r' then ['\\', 'r']
  else if c = '\t' then ['\\', 't']
  else if c < ' ' then
    '\\' :: 'u' :: '0' :: '0' :: [Nat.digitChar (c.toNat / 16), Nat.digitChar (c.toNat % 16)]
  else [c]

def writeText (cs : List Char) : List Char := '"' :: cs.flatMap escapeChar ++ ['"']

def escapeLetter? (c : Char) : Option Char :=
  if c = '"' ∨ c = '\\' ∨ c = '/' then some c
  else if c = 'b' then some '\x08'
  else if c = 'f' then some '\x0c'
  else if c = 'n' then some '\n'
  else if c = 'r' then some '\r'
  else if c = 't' then some '\t'
  else none

def readCode (cs : List Char) : Except Fault (Nat × List Char) :=
  if Text.size (cs.take 4) < 4 then .error ⟨.endOfText, 0⟩
  else
    match cs with
    | a :: b :: c :: d :: rest =>
      match Numeral.hexValue? a, Numeral.hexValue? b, Numeral.hexValue? c, Numeral.hexValue? d with
      | some a, some b, some c, some d => .ok (4096 * a + 256 * b + 16 * c + d, rest)
      | _, _, _, _ => .error ⟨.invalidEscape, Text.size cs - 4⟩
    | _ => .error ⟨.invalidEscape, Text.size cs - 4⟩

/-- The character that codes behind `\u` name, and what follows them. A code from the upper
range of surrogates needs one from the lower range after it. -/
def readCodes (cs : List Char) : Except Fault (Char × List Char) := do
  let (high, rest) ← readCode cs
  if 0xdc00 ≤ high ∧ high ≤ 0xdfff then stop rest .loneSurrogate
  else if high < 0xd800 ∨ 0xdfff < high then return (Char.ofNat high, rest)
  else
    match rest with
    | [] => stop [] .endOfText
    | '\\' :: [] => stop [] .endOfText
    | '\\' :: 'u' :: more =>
      let (low, rest) ← readCode more
      if 0xdc00 ≤ low ∧ low ≤ 0xdfff then
        return (Char.ofNat (0x10000 + 0x400 * (high - 0xd800) + (low - 0xdc00)), rest)
      else stop rest .loneSurrogate
    | '\\' :: more => stopAt more .unfinishedEscape
    | _ => stopAt rest .unfinishedEscape

def readEscape : List Char → Except Fault (Char × List Char)
  | [] => stop [] .endOfText
  | 'u' :: rest => readCodes rest
  | c :: rest =>
    match escapeLetter? c with
    | some x => .ok (x, rest)
    | none => stopAt (c :: rest) .invalidEscape

theorem readCode_length {cs rest : List Char} {n : Nat} (h : readCode cs = .ok (n, rest)) :
    rest.length < cs.length := by
  unfold readCode at h
  split at h
  · simp at h
  · split at h
    · split at h
      · simp only [Except.ok.injEq, Prod.mk.injEq] at h
        rw [← h.2]
        simp only [List.length_cons]
        omega
      · simp at h
    · simp at h

theorem readCodes_length {cs rest : List Char} {c : Char} (h : readCodes cs = .ok (c, rest)) :
    rest.length < cs.length := by
  unfold readCodes at h
  cases hc : readCode cs with
  | error e => simp [hc, bind, Except.bind] at h
  | ok r =>
    have first := readCode_length hc
    simp only [hc, bind, Except.bind] at h
    split at h
    · simp [stop] at h
    split at h
    · simp only [pure, Except.pure, Except.ok.injEq, Prod.mk.injEq] at h
      rw [← h.2]
      exact first
    split at h
    · simp [stop] at h
    · simp [stop] at h
    · rename_i more hr
      cases hl : readCode more with
      | error e => simp [hl] at h
      | ok s =>
        have second := readCode_length hl
        simp only [hl] at h
        split at h
        · simp only [pure, Except.pure, Except.ok.injEq, Prod.mk.injEq] at h
          rw [← h.2]
          simp only [hr, List.length_cons] at first
          omega
        · simp [stop] at h
    · simp [stopAt] at h
    · simp [stopAt] at h

theorem readEscape_length {cs rest : List Char} {c : Char} (h : readEscape cs = .ok (c, rest)) :
    rest.length < cs.length := by
  unfold readEscape at h
  split at h
  · simp [stop] at h
  · have := readCodes_length h
    simp only [List.length_cons]
    omega
  · split at h
    · simp only [Except.ok.injEq, Prod.mk.injEq] at h
      rw [← h.2]
      simp
    · simp [stopAt] at h

def readText (cs : List Char) : Except Fault (List Char × List Char) :=
  match cs with
  | [] => stop [] .endOfText
  | c :: rest =>
    if c = '"' then .ok ([], rest)
    else if c = '\\' then
      match h : readEscape rest with
      | .error e => .error e
      | .ok (x, after) =>
        have := readEscape_length h
        (readText after).map fun (xs, end') => (x :: xs, end')
    else if c < ' ' then stop rest .controlCharacter
    else (readText rest).map fun (xs, end') => (c :: xs, end')
termination_by cs.length

def skipEscape : List Char → Except Fault (List Char)
  | [] => stop [] .endOfText
  | 'u' :: rest => (readCode rest).map (·.2)
  | c :: rest =>
    if (escapeLetter? c).isSome then .ok rest else stopAt (c :: rest) .invalidEscape

theorem skipEscape_length {cs rest : List Char} (h : skipEscape cs = .ok rest) :
    rest.length < cs.length := by
  unfold skipEscape at h
  split at h
  · simp [stop] at h
  · rename_i more
    cases hc : readCode more with
    | error e => simp [hc, Except.map] at h
    | ok r =>
      have := readCode_length hc
      simp only [hc, Except.map, Except.ok.injEq] at h
      rw [← h]
      simp only [List.length_cons]
      omega
  · split at h
    · simp only [Except.ok.injEq] at h
      rw [← h]
      simp
    · simp [stopAt] at h

/-- What follows the closing quotation mark of a text that is passed over. Its codes need not
name characters. -/
def skipText (cs : List Char) : Except Fault (List Char) :=
  match cs with
  | [] => stop [] .endOfText
  | c :: rest =>
    if c = '"' then .ok rest
    else if c = '\\' then
      match h : skipEscape rest with
      | .error e => .error e
      | .ok after =>
        have := skipEscape_length h
        skipText after
    else if c < ' ' then stop (c :: rest) .controlCharacter
    else skipText rest
termination_by cs.length

end PhotoCapture.Json
