import PhotoCapture.Proofs.Json.Number
import PhotoCapture.Proofs.Json.Text

namespace PhotoCapture.Json

variable {w ws cs rest : List Char} {frame : Frame} {parts : Nat}

section Starts

theorem isSpace_of_digit {c : Char} (h : c.isDigit = true) : isSpace c = false := by
  cases space : isSpace c with
  | false => rfl
  | true =>
    have blank : c = ' ' ∨ c = '\n' ∨ c = '\t' ∨ c = '\r' := by
      simpa [isSpace, or_assoc] using space
    rcases blank with rfl | rfl | rfl | rfl <;> exact absurd h (by decide)

theorem IsUnsigned.exists_first (h : IsUnsigned w) :
    ∃ c more, w = c :: more ∧ c.isDigit = true := by
  obtain ⟨hwhole, -, -⟩ := h
  obtain ⟨c, more, rfl, digit⟩ := hwhole.exists_first
  exact ⟨c, _, rfl, digit⟩

theorem Frame.opening_visible (frame : Frame) :
    isSpace frame.opening = false ∧ frame.opening ≠ ']' := by
  cases frame <;> decide

theorem IsValue.exists_first (h : IsValue w) :
    ∃ c more, w = c :: more ∧ isSpace c = false ∧ c ≠ ']' := by
  cases h with
  | null => exact ⟨'n', _, rfl, by decide, by decide⟩
  | yes => exact ⟨'t', _, rfl, by decide, by decide⟩
  | no => exact ⟨'f', _, rfl, by decide, by decide⟩
  | positive number =>
    obtain ⟨c, more, rfl, digit⟩ := number.exists_first
    refine ⟨c, more, rfl, isSpace_of_digit digit, ?_⟩
    rintro rfl
    exact absurd digit (by decide)
  | negative _ => exact ⟨'-', _, rfl, by decide, by decide⟩
  | text _ => exact ⟨'"', _, rfl, by decide, by decide⟩
  | empty frame _ => exact ⟨frame.opening, _, rfl, frame.opening_visible⟩
  | filled frame _ => exact ⟨frame.opening, _, rfl, frame.opening_visible⟩

theorem IsValue.skipSpace_append (h : IsValue w) (rest : List Char) :
    skipSpace (w ++ rest) = w ++ rest := by
  obtain ⟨c, more, rfl, space, -⟩ := h.exists_first
  exact skipSpace_cons space (more ++ rest)

theorem IsPart.exists_first (h : IsPart frame w) (rest : List Char) :
    ∃ c more, skipSpace (w ++ rest) = c :: more ∧ c ≠ frame.closing := by
  cases h with
  | element before value _ =>
    obtain ⟨c, more, rfl, space, closing⟩ := value.exists_first
    rw [List.append_assoc, List.append_assoc, skipSpace_gap before]
    exact ⟨c, _, skipSpace_cons space _, closing⟩
  | member before _ _ _ =>
    simp only [List.append_assoc, List.cons_append, skipSpace_gap before]
    exact ⟨'"', _, skipSpace_cons (by decide) _, by decide⟩

theorem IsParts.exists_first (h : IsParts frame ws) (rest : List Char) :
    ∃ c more, skipSpace (ws ++ rest) = c :: more ∧ c ≠ frame.closing := by
  cases h with
  | last part => exact part.exists_first rest
  | more part _ =>
    rw [List.append_assoc]
    exact part.exists_first _

end Starts

section Steps

theorem skipValueWithin_opening (h : skipSpace cs = frame.opening :: rest) :
    skipValueWithin (parts + 1) cs = skipFirst parts frame rest := by
  cases frame <;> rw [skipValueWithin, h] <;> rfl

theorem skipValueWithin_digit {c : Char} (h : skipSpace cs = c :: rest) (digit : c.isDigit = true) :
    skipValueWithin (parts + 1) cs = skipNumber (c :: rest) := by
  rw [skipValueWithin, h]
  split
  next heq => cases heq
  next heq => cases heq; exact absurd digit (by decide)
  next heq => cases heq; exact absurd digit (by decide)
  next heq => cases heq; exact absurd digit (by decide)
  next heq => cases heq; exact absurd digit (by decide)
  next heq => cases heq; exact absurd digit (by decide)
  next heq => cases heq; exact absurd digit (by decide)
  next heq => cases heq; exact absurd digit (by decide)
  next heq => cases heq; exact if_pos digit

theorem skipFirst_part {c : Char} (h : skipSpace cs = c :: rest) (part : c ≠ frame.closing) :
    skipFirst (parts + 1) frame cs = skipOthers parts frame (c :: rest) := by
  rw [skipFirst, h]
  exact if_neg part

theorem skipFirst_closing (h : skipSpace cs = frame.closing :: rest) :
    skipFirst (parts + 1) frame cs = .ok rest := by
  rw [skipFirst, h]
  exact if_pos rfl

theorem skipKey_member {before key gap : List Char} (hbefore : IsGap before) (hkey : IsText key)
    (hgap : IsGap gap)
    (h : skipSpace cs = skipSpace (before ++ '"' :: key ++ '"' :: gap ++ ':' :: w ++ rest)) :
    Frame.object.skipKey cs = .ok (w ++ rest) := by
  have start : skipSpace cs = '"' :: (key ++ '"' :: (gap ++ ':' :: (w ++ rest))) := by
    simp only [List.append_assoc, List.cons_append] at h
    rw [h, skipSpace_gap hbefore]
    exact skipSpace_cons (by decide) _
  have colon : skipSpace (gap ++ ':' :: (w ++ rest)) = ':' :: (w ++ rest) := by
    rw [skipSpace_gap hgap]
    exact skipSpace_cons (by decide) _
  rw [Frame.skipKey, start]
  simp only [skipText_append hkey, bind, Except.bind, readColon, colon]

theorem skipOthers_part {c : Char} {r : List Char}
    (h : (frame.skipKey cs >>= skipValueWithin parts) = .ok r) (hr : skipSpace r = c :: rest) :
    skipOthers (parts + 1) frame cs =
      if c = ',' then skipOthers parts frame rest
      else if c = frame.closing then .ok rest
      else stopAt (c :: rest) frame.expectedEnd := by
  rw [skipOthers]
  cases key : frame.skipKey cs with
  | error fault => rw [key] at h; cases h
  | ok value =>
    rw [key] at h
    simp only [bind, Except.bind] at h ⊢
    rw [h]
    simp only [hr]

end Steps

mutual

theorem skipValueWithin_value {w cs rest : List Char} {parts : Nat} :
    IsValue w → Ends rest → skipSpace cs = w ++ rest → 3 * w.length + 1 ≤ parts →
      skipValueWithin parts cs = .ok rest
  | .null, _, start, enough => by
    obtain ⟨parts, rfl⟩ := Nat.exists_eq_add_of_lt (Nat.lt_of_succ_le enough)
    rw [skipValueWithin, start]
    rfl
  | .yes, _, start, enough => by
    obtain ⟨parts, rfl⟩ := Nat.exists_eq_add_of_lt (Nat.lt_of_succ_le enough)
    rw [skipValueWithin, start]
    rfl
  | .no, _, start, enough => by
    obtain ⟨parts, rfl⟩ := Nat.exists_eq_add_of_lt (Nat.lt_of_succ_le enough)
    rw [skipValueWithin, start]
    rfl
  | .positive number, ends, start, enough => by
    obtain ⟨parts, rfl⟩ := Nat.exists_eq_add_of_lt (Nat.lt_of_succ_le enough)
    have passed := skipNumber_append number ends
    obtain ⟨c, more, rfl, digit⟩ := number.exists_first
    rw [skipValueWithin_digit start digit]
    exact passed
  | .negative number, ends, start, enough => by
    obtain ⟨parts, rfl⟩ := Nat.exists_eq_add_of_lt (Nat.lt_of_succ_le enough)
    rw [skipValueWithin, start]
    exact skipNumber_append number ends
  | .text text, ends, start, enough => by
    obtain ⟨parts, rfl⟩ := Nat.exists_eq_add_of_lt (Nat.lt_of_succ_le enough)
    rw [skipValueWithin, start, List.append_assoc]
    exact skipText_append text rest
  | .empty frame gap, _, start, enough => by
    obtain ⟨parts, rfl⟩ : ∃ p, parts = p + 2 := ⟨parts - 2, by
      simp only [List.length_append, List.length_cons] at enough
      omega⟩
    rw [List.append_assoc] at start
    rw [skipValueWithin_opening start]
    refine skipFirst_closing ((skipSpace_gap gap _).trans ?_)
    exact skipSpace_cons (by cases frame <;> decide) rest
  | .filled frame filled, _, start, enough => by
    rename_i ws
    simp only [List.length_append, List.length_cons, List.length_nil] at enough
    obtain ⟨parts, rfl⟩ : ∃ p, parts = p + 2 := ⟨parts - 2, by omega⟩
    obtain ⟨c, more, first, part⟩ := filled.exists_first (frame.closing :: rest)
    rw [List.append_assoc] at start
    rw [skipValueWithin_opening start]
    refine (skipFirst_part first part).trans (skipOthers_parts filled ?_ (by omega))
    rw [← first, skipSpace_idem]

theorem skipPart {frame : Frame} {w cs rest : List Char} {parts : Nat} :
    IsPart frame w → Ends rest → skipSpace cs = skipSpace (w ++ rest) → 3 * w.length + 1 ≤ parts →
      ∃ gap, IsGap gap ∧ (frame.skipKey cs >>= skipValueWithin parts) = .ok (gap ++ rest)
  | .element before value after, ends, start, enough => by
    simp only [List.length_append] at enough
    rw [List.append_assoc, List.append_assoc, skipSpace_gap before, value.skipSpace_append] at start
    exact ⟨_, after, skipValueWithin_value value (ends.of_gap after) start (by omega)⟩
  | .member before key gap value, ends, start, enough => by
    simp only [List.length_append, List.length_cons] at enough
    obtain ⟨left, blank, passed⟩ := skipPart value ends rfl (show _ ≤ parts by omega)
    refine ⟨left, blank, ?_⟩
    rw [skipKey_member before key gap start]
    exact passed

theorem skipOthers_parts {frame : Frame} {ws cs rest : List Char} {parts : Nat} :
    IsParts frame ws → skipSpace cs = skipSpace (ws ++ frame.closing :: rest) →
      3 * ws.length + 2 ≤ parts → skipOthers parts frame cs = .ok rest
  | .last part, start, enough => by
    obtain ⟨parts, rfl⟩ : ∃ p, parts = p + 1 := ⟨parts - 1, by omega⟩
    obtain ⟨gap, blank, passed⟩ := skipPart part (frame.ends_closing rest) start
      (show _ ≤ parts by omega)
    have closing : skipSpace (gap ++ frame.closing :: rest) = frame.closing :: rest := by
      rw [skipSpace_gap blank]
      exact skipSpace_cons (by cases frame <;> decide) rest
    rw [skipOthers_part passed closing, if_neg (by cases frame <;> decide), if_pos rfl]
  | .more part others, start, enough => by
    simp only [List.length_append, List.length_cons] at enough
    obtain ⟨parts, rfl⟩ : ∃ p, parts = p + 1 := ⟨parts - 1, by omega⟩
    rw [List.append_assoc] at start
    obtain ⟨gap, blank, passed⟩ := skipPart part (ends_comma _) start (show _ ≤ parts by omega)
    have comma : isSpace ',' = false := by decide
    rw [skipOthers_part passed ((skipSpace_gap blank _).trans (skipSpace_cons comma _)), if_pos rfl]
    exact skipOthers_parts others rfl (by omega)

end

theorem skipValue_append (h : IsValue w) (ends : Ends rest)
    (start : skipSpace cs = skipSpace (w ++ rest)) : skipValue cs = .ok rest := by
  rw [h.skipSpace_append] at start
  have shorter : (skipSpace cs).length ≤ cs.length := (List.dropWhile_sublist _).length_le
  rw [start, List.length_append] at shorter
  exact skipValueWithin_value h ends start (by omega)

end PhotoCapture.Json
