import PhotoCapture.Proofs.Json.Grammar
import Mathlib.Tactic.SplitIfs

namespace PhotoCapture.Json

variable {ds es w xs cs rest : List Char} {n : Nat} {c l : Char}

section Escapes

theorem escapeLetter?_of_mem (h : (l, c) ∈ escapes) : escapeLetter? l = some c := by
  have table : ∀ e ∈ escapes, escapeLetter? e.1 = some e.2 := by decide
  exact table (l, c) h

theorem ne_of_mem_escapes (h : (l, c) ∈ escapes) : l ≠ 'u' := by
  have table : ∀ e ∈ escapes, e.1 ≠ 'u' := by decide
  exact table (l, c) h

theorem four_le_size (i j k l : Char) : 4 ≤ Text.size [i, j, k, l] := by
  have := i.utf8Size_pos
  have := j.utf8Size_pos
  have := k.utf8Size_pos
  have := l.utf8Size_pos
  simp only [Text.size]
  omega

theorem readCode_append (h : IsCode ds n) (rest : List Char) :
    readCode (ds ++ rest) = .ok (n, rest) := by
  obtain ⟨ha, hb, hc, hd⟩ := h
  rename_i i j k l _ _ _ _
  have enough : ¬ Text.size (List.take 4 ([i, j, k, l] ++ rest)) < 4 :=
    Nat.not_lt.mpr (four_le_size i j k l)
  unfold readCode
  rw [if_neg enough]
  simp only [List.cons_append, List.nil_append, ha, hb, hc, hd]

theorem readEscape_letter (h : (l, c) ∈ escapes) (rest : List Char) :
    readEscape (l :: rest) = .ok (c, rest) := by
  rw [readEscape, escapeLetter?_of_mem h]
  exact ne_of_mem_escapes h

theorem toNat_valid (c : Char) : c.toNat < 0xd800 ∨ 0xdfff < c.toNat ∧ c.toNat < 0x110000 := c.valid

theorem readEscape_code (h : IsCode ds c.toNat) (rest : List Char) :
    readEscape ('u' :: ds ++ rest) = .ok (c, rest) := by
  have valid := toNat_valid c
  have single : c.toNat < 0xd800 ∨ 0xdfff < c.toNat := by omega
  have notLower : ¬ (0xdc00 ≤ c.toNat ∧ c.toNat ≤ 0xdfff) := by omega
  change readCodes (ds ++ rest) = _
  simp only [readCodes, readCode_append h, bind, Except.bind, if_neg notLower, if_pos single,
    Char.ofNat_toNat]
  rfl

theorem readEscape_pair {high low : Nat} (first : IsCode ds high) (second : IsCode es low)
    (upper : 0xd800 ≤ high ∧ high < 0xdc00) (lower : 0xdc00 ≤ low ∧ low ≤ 0xdfff)
    (both : c.toNat = 0x10000 + 0x400 * (high - 0xd800) + (low - 0xdc00)) (rest : List Char) :
    readEscape ('u' :: ds ++ '\\' :: 'u' :: es ++ rest) = .ok (c, rest) := by
  have notLower : ¬ (0xdc00 ≤ high ∧ high ≤ 0xdfff) := by omega
  have notSingle : ¬ (high < 0xd800 ∨ 0xdfff < high) := by omega
  have named : Char.ofNat (0x10000 + 0x400 * (high - 0xd800) + (low - 0xdc00)) = c := by
    rw [← both, Char.ofNat_toNat]
  have codes : readCode (ds ++ '\\' :: 'u' :: (es ++ rest)) =
      .ok (high, '\\' :: 'u' :: (es ++ rest)) :=
    readCode_append first _
  have regroup : 'u' :: ds ++ '\\' :: 'u' :: es ++ rest =
      'u' :: (ds ++ '\\' :: 'u' :: (es ++ rest)) := by
    simp only [List.cons_append, List.append_assoc]
  rw [regroup]
  change readCodes _ = _
  simp only [readCodes, codes, bind, Except.bind, if_neg notLower, if_neg notSingle,
    readCode_append second, if_pos lower, named]
  rfl

end Escapes

section Reading

theorem readText_quote (rest : List Char) : readText ('"' :: rest) = .ok ([], rest) := by
  rw [readText, if_pos rfl]

theorem readText_plain (printed : ¬ c < ' ') (quote : c ≠ '"') (backslash : c ≠ '\\')
    (cs : List Char) :
    readText (c :: cs) = (readText cs).map fun (xs, rest) => (c :: xs, rest) := by
  rw [readText, if_neg quote, if_neg backslash, if_neg printed]

theorem readText_escape (h : readEscape cs = .ok (c, rest)) :
    readText ('\\' :: cs) = (readText rest).map fun (xs, rest) => (c :: xs, rest) := by
  rw [readText, if_neg (by decide), if_pos rfl]
  split
  next e he => rw [h] at he; cases he
  next x after ha =>
    rw [h] at ha
    cases ha
    rfl

/-- A spelling is read up to its closing quotation mark. -/
theorem readText_spelled (h : Spells w xs) (rest : List Char) :
    readText (w ++ '"' :: rest) = .ok (xs, rest) := by
  induction h with
  | nil => exact readText_quote rest
  | plain printed quote backslash _ ih =>
    rw [List.cons_append, readText_plain printed quote backslash, ih]
    rfl
  | letter short _ ih =>
    rw [List.cons_append, List.cons_append, readText_escape (readEscape_letter short _), ih]
    rfl
  | code single _ ih =>
    rw [List.append_assoc, List.cons_append, readText_escape (readEscape_code single _), ih]
    rfl
  | pair first second upper lower both _ ih =>
    rw [List.append_assoc, List.append_assoc, List.cons_append, ← List.append_assoc,
      readText_escape (readEscape_pair first second upper lower both _), ih]
    rfl

end Reading

section Skipping

theorem skipText_plain (printed : ¬ c < ' ') (quote : c ≠ '"') (backslash : c ≠ '\\')
    (cs : List Char) : skipText (c :: cs) = skipText cs := by
  rw [skipText, if_neg quote, if_neg backslash, if_neg printed]

theorem skipText_escape (h : skipEscape cs = .ok rest) : skipText ('\\' :: cs) = skipText rest := by
  rw [skipText, if_neg (by decide), if_pos rfl]
  split
  next e he => rw [h] at he; cases he
  next after ha =>
    rw [h] at ha
    cases ha
    rfl

theorem skipText_append (h : IsText w) (rest : List Char) :
    skipText (w ++ '"' :: rest) = .ok rest := by
  induction h with
  | nil => rw [List.nil_append, skipText, if_pos rfl]
  | plain printed quote backslash _ ih =>
    rw [List.cons_append, skipText_plain printed quote backslash, ih]
  | @letter l c w short _ ih =>
    have escape : skipEscape (l :: (w ++ '"' :: rest)) = .ok (w ++ '"' :: rest) := by
      rw [skipEscape, escapeLetter?_of_mem short]
      · rfl
      · exact ne_of_mem_escapes short
    exact (skipText_escape escape).trans ih
  | @code ds w n single _ ih =>
    have escape : skipEscape ('u' :: ds ++ (w ++ '"' :: rest)) = .ok (w ++ '"' :: rest) := by
      change (readCode (ds ++ (w ++ '"' :: rest))).map (·.2) = _
      rw [readCode_append single]
      rfl
    rw [List.append_assoc]
    exact (skipText_escape escape).trans ih

end Skipping

section Writing

/-- A control character without a letter of its own is written by its code. -/
theorem isCode_control (h : c < ' ') :
    IsCode ['0', '0', Nat.digitChar (c.toNat / 16), Nat.digitChar (c.toNat % 16)] c.toNat := by
  have hex : ∀ d < 16, Numeral.hexValue? (Nat.digitChar d) = some d := by decide
  have small : c.toNat < 32 := h
  have zero : Numeral.hexValue? '0' = some 0 := by decide
  have code := IsCode.digits zero zero (hex (c.toNat / 16) (by omega))
    (hex (c.toNat % 16) (by omega))
  have value : 4096 * 0 + 256 * 0 + 16 * (c.toNat / 16) + c.toNat % 16 = c.toNat := by omega
  rwa [value] at code

theorem spells_escapeChar (c : Char) (h : Spells w xs) : Spells (escapeChar c ++ w) (c :: xs) := by
  have letter {l d : Char} (short : (l, d) ∈ escapes) (same : c = d) :
      Spells ('\\' :: l :: w) (c :: xs) := .letter (same ▸ short) h
  unfold escapeChar
  split_ifs with quote backslash backspace feed line carriage tab control
  · exact letter (by decide) quote
  · exact letter (by decide) backslash
  · exact letter (by decide) backspace
  · exact letter (by decide) feed
  · exact letter (by decide) line
  · exact letter (by decide) carriage
  · exact letter (by decide) tab
  · exact .code (isCode_control control) h
  · exact .plain control quote backslash h

theorem spells_escaped (xs : List Char) : Spells (xs.flatMap escapeChar) xs := by
  induction xs with
  | nil => exact .nil
  | cons c xs ih => exact spells_escapeChar c ih

theorem writesText_writeText (xs : List Char) : WritesText xs (writeText xs) :=
  ⟨_, spells_escaped xs, rfl⟩

end Writing

end PhotoCapture.Json
