import PhotoCapture.Proofs.Filter.Description
import Mathlib.Data.List.Infix

namespace PhotoCapture.Markup

variable {init body chunk mark : List Char} {last : Char}

theorem splitAt?_prefix (mark q : List Char) : splitAt? mark (mark ++ q) = some ([], q) := by
  cases h : mark ++ q with
  | nil =>
    obtain ⟨rfl, rfl⟩ := List.append_eq_nil_iff.mp h
    rfl
  | cons c cs =>
    have here : mark.isPrefixOf (c :: cs) = true :=
      List.isPrefixOf_iff_prefix.mpr (h ▸ List.prefix_append mark q)
    rw [splitAt?, if_pos here, ← h, List.drop_left]

/-- A mark whose last character stands nowhere else in it does not begin in a text and end in the
mark behind the text. -/
theorem not_prefix_of_not_infix (once : last ∉ init) (text : body ≠ [])
    (free : ¬ init ++ [last] <:+: body) (q : List Char) :
    ¬ init ++ [last] <+: body ++ (init ++ [last] ++ q) := by
  intro early
  rcases List.prefix_or_prefix_of_prefix early (List.prefix_append body _) with inside | ⟨t, ht⟩
  · exact free inside.isInfix
  -- What reaches beyond the text is a beginning of the mark behind it, and shorter than the mark.
  rw [← ht, List.prefix_append_right_inj, ht] at early
  rcases List.eq_nil_or_concat' t with rfl | ⟨t', x, rfl⟩
  · exact free ⟨[], [], by simpa using ht.symm⟩
  · rw [← List.append_assoc] at ht
    obtain ⟨front, ends⟩ := List.append_inj' ht rfl
    obtain rfl : x = last := List.singleton_inj.mp ends
    have short : (t' ++ [x]).length ≤ init.length := by
      have some := List.length_pos_iff.mpr text
      rw [← front, List.length_append, List.length_append, List.length_singleton]
      omega
    have start : init <+: init ++ [x] ++ q := ⟨[x] ++ q, by simp⟩
    exact once ((List.prefix_of_prefix_length_le early start short).subset (by simp))

/-- A mark ends a text that does not hold it. -/
theorem splitAt?_of_not_infix (init : List Char) (last : Char) (once : last ∉ init)
    (free : ¬ init ++ [last] <:+: body) (q : List Char) :
    splitAt? (init ++ [last]) (body ++ (init ++ [last] ++ q)) = some (body, q) := by
  induction body with
  | nil => exact splitAt?_prefix (init ++ [last]) q
  | cons c body ih =>
    have early := not_prefix_of_not_infix once (List.cons_ne_nil c body) free q
    have rest : ¬ init ++ [last] <:+: body := fun h =>
      free (h.trans (List.suffix_cons c body).isInfix)
    rw [List.cons_append] at early ⊢
    rw [splitAt?, if_neg (mt List.isPrefixOf_iff_prefix.mp early), ih rest]
    rfl

/-- Text that the reader passes over, whatever stands before the mark that ends it. -/
inductive Inert : List Char → Prop
  | comment (body : List Char) (unended : ¬ "-->".toList <:+: body) :
    Inert ("<!--".toList ++ body ++ "-->".toList)
  | characterData (body : List Char) (unended : ¬ "]]>".toList <:+: body) :
    Inert ("<![CDATA[".toList ++ body ++ "]]>".toList)
  | instruction (body : List Char) (unended : ¬ "?>".toList <:+: '?' :: body) :
    Inert ("<?".toList ++ body ++ "?>".toList)
  | plain (text : List Char) (unmarked : '<' ∉ text) : Inert text

section Cuts

theorem cut_comment (unended : ¬ "-->".toList <:+: body) (q : List Char) :
    cut ("<!--".toList ++ body ++ "-->".toList ++ q) = .piece .comment q := by
  have split := splitAt?_of_not_infix "--".toList '>' (by decide) unended q
  rw [List.append_assoc, List.append_assoc]
  change Cut.ofSplit (fun _ => .comment) (splitAt? "-->".toList (body ++ ("-->".toList ++ q))) = _
  exact congrArg _ split

theorem cut_characterData (unended : ¬ "]]>".toList <:+: body) (q : List Char) :
    cut ("<![CDATA[".toList ++ body ++ "]]>".toList ++ q) = .piece .characterData q := by
  have split := splitAt?_of_not_infix "]]".toList '>' (by decide) unended q
  rw [List.append_assoc, List.append_assoc]
  change Cut.ofSplit (fun _ => .characterData)
    (splitAt? "]]>".toList (body ++ ("]]>".toList ++ q))) = _
  exact congrArg _ split

/-- The question mark that starts an instruction does not help to end it. -/
theorem cut_instruction (unended : ¬ "?>".toList <:+: '?' :: body) (q : List Char) :
    cut ("<?".toList ++ body ++ "?>".toList ++ q) = .piece .instruction q := by
  have later : ¬ "?>".toList <:+: body := fun h =>
    unended (h.trans (List.suffix_cons '?' body).isInfix)
  have split := splitAt?_of_not_infix "?".toList '>' (by decide) later q
  have shared : ¬ ">".toList.isPrefixOf (body ++ ("?>".toList ++ q)) = true := by
    cases body with
    | nil => simp [List.isPrefixOf]
    | cons c body =>
      have bracket : c ≠ '>' := by
        rintro rfl
        exact unended ⟨[], body, rfl⟩
      simpa [List.isPrefixOf] using bracket.symm
  rw [List.append_assoc, List.append_assoc]
  change cutInstruction (body ++ ("?>".toList ++ q)) = _
  rw [cutInstruction, if_neg shared]
  exact congrArg _ split

end Cuts

theorem Reader.elements_inert (h : Inert chunk) (unclosed : List (List Char)) (q : List Char) :
    (Reader.mk unclosed (chunk ++ q)).elements = (Reader.mk unclosed q).elements := by
  have passed {text : List Char} {p : Piece} (cut : cut text = .piece p q)
      (silent : p = .comment ∨ p = .characterData ∨ p = .instruction) :
      (Reader.mk unclosed text).elements = (Reader.mk unclosed q).elements := by
    have event : (Reader.mk unclosed text).next = .event none ⟨unclosed, q⟩ := by
      rcases silent with rfl | rfl | rfl <;> simp only [Reader.next, cut]
    rw [elements_event event]
    rfl
  cases h with
  | comment body unended => exact passed (cut_comment unended q) (by simp)
  | characterData body unended => exact passed (cut_characterData unended q) (by simp)
  | instruction body unended => exact passed (cut_instruction unended q) (by simp)
  | plain text unmarked =>
    have text : ∀ c ∈ chunk, decide (c ≠ '<') = true := fun c hc =>
      decide_eq_true fun same => unmarked (same ▸ hc)
    rw [← elements_skip unclosed (chunk ++ q), List.dropWhile_append_of_pos text, elements_skip]

end PhotoCapture.Markup

namespace PhotoCapture.Filter

open Markup (Inert Reader)

/-- Inert text changes nothing between a text that is read to its end and any other text. -/
theorem inert_text_changes_nothing {p chunk : String}
    (read : (Reader.mk [] p.toList).read.2 ≠ .broken) (inert : Inert chunk.toList) (q : String) :
    ofDescription (p ++ chunk ++ q) = ofDescription (p ++ q) := by
  obtain ⟨unclosed, parts⟩ := elements_append_of_read read
  have same : Markup.elements (p ++ chunk ++ q).toList = Markup.elements (p ++ q).toList := by
    rw [String.toList_append, String.toList_append, String.toList_append, List.append_assoc, parts,
      parts, Reader.elements_inert inert]
  rw [ofDescription, ofDescription, same]

/-- A comment that holds a filter element, a closing tag and beginnings of its mark, inside an
open element and before markup that breaks. -/
theorem commented_element_changes_nothing :
    let p := "<a><filter name='contrast' value='2'>"
    let body := "></a><filter name='sepia'/> -> -"
    let q := "<filter name='brightness' value='3'/></filter></b>"
    (Reader.mk [] p.toList).read.2 ≠ .broken ∧ Inert ("<!--" ++ body ++ "-->").toList ∧
      ofDescription (p ++ ("<!--" ++ body ++ "-->") ++ q) = ofDescription (p ++ q) := by
  intro p body q
  have read : (Reader.mk [] p.toList).read.2 ≠ .broken := by decide +kernel
  have unended : ¬ "-->".toList <:+: body.toList := by decide +kernel
  have inert : Inert ("<!--" ++ body ++ "-->").toList := by
    rw [String.toList_append, String.toList_append]
    exact Inert.comment body.toList unended
  exact ⟨read, inert, inert_text_changes_nothing read inert q⟩

end PhotoCapture.Filter
