import PhotoCapture.Proofs.Filter.Description
import Mathlib.Data.List.Basic
import Mathlib.Data.List.Induction

namespace PhotoCapture.Filter

open Markup (Element)

variable {field : Field} {element : Element} {elements others before after : List Element}

/-- The filter elements of a description, as far as it can be read. -/
def filterElements (text : String) : List Element :=
  (Markup.elements text.toList).filter fun element => element.name = "filter".toList

section Saying

def WritesFinite (value : Option (List Char)) (x : Single) : Prop :=
  ∃ text, value = some text ∧ Binary.ofText? text = some x ∧ x.isFinite = true

/-- The factor is the finite number that the value writes, or one if it writes none. -/
def IsFactor (value : Option (List Char)) (x : Single) : Prop :=
  WritesFinite value x ∨ x = 1 ∧ ∀ y, ¬ WritesFinite value y

/-- A field is what a value says. Sepia is on for one word only. -/
def Field.IsSaid (value : Option (List Char)) : (field : Field) → field.Value → Prop
  | .sepia, on => on = true ↔ value = some "true".toList
  | .brightness, x | .contrast, x | .saturation, x => IsFactor value x

theorem isFactor_factor (value : Option (List Char)) : IsFactor value (factor value) := by
  unfold factor
  cases written : value >>= Binary.ofText? (f := .single) with
  | none =>
    refine .inr ⟨rfl, ?_⟩
    rintro y ⟨text, rfl, hy, -⟩
    exact absurd (hy.symm.trans written) (Option.some_ne_none y)
  | some x =>
    obtain ⟨text, rfl, hx⟩ := Option.bind_eq_some_iff.mp written
    dsimp only
    split
    next finite => exact .inl ⟨text, rfl, hx, finite⟩
    next infinite =>
      refine .inr ⟨rfl, ?_⟩
      rintro y ⟨text', ht, hy, finite⟩
      obtain rfl := Option.some.inj ht
      obtain rfl := Option.some.inj (hx.symm.trans hy)
      exact infinite finite

theorem isSaid_set (filter : Filter Single) (field : Field) (value : Option (List Char)) :
    field.IsSaid value ((filter.set field value).get field) := by
  cases field with
  | sepia => exact decide_eq_true_iff
  | brightness => exact isFactor_factor value
  | contrast => exact isFactor_factor value
  | saturation => exact isFactor_factor value

end Saying

theorem ofElements_single (h : Names element field) :
    ofElements [element] = neutral.set field (Entry.ofElement element).value := by
  obtain ⟨name, named⟩ := h
  have setting : setting? element = some (field, (Entry.ofElement element).value) := by
    simp only [setting?, name, if_true, named, Option.map_some]
  simp [ofElements, setting]

theorem get_ofElements_unnamed (h : ¬ NamedIn field elements) :
    (ofElements elements).get field = neutral.get field := by
  have split := get_ofElements_append field [] elements
  rwa [if_neg h] at split

/-- Of the elements that name a field, the last one decides it. -/
theorem get_ofElements_last (h : Names element field) (later : ¬ NamedIn field after) :
    (ofElements (before ++ element :: after)).get field =
      (neutral.set field (Entry.ofElement element).value).get field := by
  have own : NamedIn field [element] := ⟨element, List.mem_singleton_self element, h⟩
  rw [List.append_cons, get_ofElements_append, if_neg later, get_ofElements_append, if_pos own,
    ofElements_single h]

theorem ofDescription_eq (text : String) :
    ofDescription text = ofElements (filterElements text) := by
  have same : (Markup.elements text.toList).filterMap setting? =
      (filterElements text).filterMap setting? := by
    rw [filterElements, List.filterMap_filter]
    refine List.filterMap_congr fun element _ => ?_
    by_cases name : element.name = "filter".toList
    · simp only [name, decide_true, if_true]
    · simp only [name, decide_false, Bool.false_eq_true, if_false, setting?]
  rw [ofDescription, ofElements, same, ofElements]

section Rearranged

def nameOf (element : Element) : Option (List Char) := (Entry.ofElement element).name

/-- The elements of each name stand in the same order, so that only elements with different names
have changed places. -/
def Rearranged (elements others : List Element) : Prop :=
  ∀ name, elements.filter (nameOf · = name) = others.filter (nameOf · = name)

theorem rearranged_swap {a b : Element} (different : nameOf a ≠ nameOf b) :
    Rearranged (before ++ a :: b :: after) (before ++ b :: a :: after) := by
  intro name
  have pair : [a, b].filter (nameOf · = name) = [b, a].filter (nameOf · = name) := by
    by_cases ha : nameOf a = name
    · have hb : nameOf b ≠ name := fun hb => different (ha.trans hb.symm)
      simp [ha, hb]
    · simp [ha, List.filter_cons]
  have parts (x y : Element) : before ++ x :: y :: after = before ++ ([x, y] ++ after) := rfl
  simp only [parts, List.filter_append, pair]

def Field.name : Field → List Char
  | .brightness => "brightness".toList
  | .contrast => "contrast".toList
  | .saturation => "saturation".toList
  | .sepia => "sepia".toList

theorem Field.eq_name_of_ofName? {name : List Char} (h : Field.ofName? name = some field) :
    name = field.name := by
  unfold Field.ofName? at h
  split at h
  next same => cases Option.some.inj h; exact same
  next =>
    split at h
    next same => cases Option.some.inj h; exact same
    next =>
      split at h
      next same => cases Option.some.inj h; exact same
      next =>
        split at h
        next same => cases Option.some.inj h; exact same
        next => cases h

theorem nameOf_eq_of_names (h : Names element field) : nameOf element = some field.name := by
  obtain ⟨name, hname, hfield⟩ := Option.bind_eq_some_iff.mp h.2
  rw [nameOf, hname, Field.eq_name_of_ofName? hfield]

theorem get_ofElements_filter (field : Field) (elements : List Element) :
    (ofElements (elements.filter (nameOf · = some field.name))).get field =
      (ofElements elements).get field := by
  induction elements using List.reverseRecOn with
  | nil => rfl
  | append_singleton earlier last ih =>
    rw [List.filter_append, get_ofElements_append, get_ofElements_append, ih]
    by_cases named : Names last field
    · have kept : [last].filter (nameOf · = some field.name) = [last] := by
        simp [nameOf_eq_of_names named]
      rw [kept]
    · have unnamed {l : List Element} (sub : ∀ e ∈ l, e ∈ [last]) : ¬ NamedIn field l := by
        rintro ⟨e, he, hn⟩
        exact named (List.mem_singleton.mp (sub e he) ▸ hn)
      rw [if_neg (unnamed fun e he => List.mem_of_mem_filter he), if_neg (unnamed fun e he => he)]

theorem ofElements_rearranged (h : Rearranged elements others) :
    ofElements elements = ofElements others := by
  refine ext_get fun field => ?_
  rw [← get_ofElements_filter, h, get_ofElements_filter]

end Rearranged

/-- Every field of a description has its default when no filter element names it, and otherwise
what the value of the last such element says. So all factors are finite, and descriptions whose
filter elements differ only in how those with different names are mixed give the same filter. -/
theorem last_element_decides (text : String) :
    (∀ field, ¬ NamedIn field (filterElements text) →
      (ofDescription text).get field = neutral.get field) ∧
    (∀ field before element after, filterElements text = before ++ element :: after →
      Names element field → ¬ NamedIn field after →
      field.IsSaid (Entry.ofElement element).value ((ofDescription text).get field)) ∧
    (ofDescription text).IsFinite ∧
    ∀ other, Rearranged (filterElements other) (filterElements text) →
      ofDescription other = ofDescription text ∧
        (ofDescription other).matrix = (ofDescription text).matrix := by
  refine ⟨fun field unnamed => ?_, fun field before element after split names later => ?_, ?_,
    fun other rearranged => ?_⟩
  · rw [ofDescription_eq, get_ofElements_unnamed unnamed]
  · rw [ofDescription_eq, split, get_ofElements_last names later]
    exact isSaid_set neutral field (Entry.ofElement element).value
  · exact isFinite_ofElements (Markup.elements text.toList)
  · have same : ofDescription other = ofDescription text := by
      rw [ofDescription_eq, ofDescription_eq, ofElements_rearranged rearranged]
    exact ⟨same, congrArg matrix same⟩

/-- Sepia in front of a contrast or between two, where a bad value resets the contrast. -/
theorem mixed_elements_agree :
    let p := "<filter name='sepia' value='true'/><filter name='contrast' value='2'/>"
    let q := "<f><filter name='contrast' value='2'/><filter name='sepia' value='true'></f><!-- "
    (ofDescription p).get .brightness = neutral.get .brightness ∧
      Field.contrast.IsSaid (some ['2']) ((ofDescription p).get .contrast) ∧
      (ofDescription q).matrix = (ofDescription p).matrix := by
  obtain ⟨unnamed, named, -, rearranged⟩ :=
    last_element_decides "<filter name='sepia' value='true'/><filter name='contrast' value='2'/>"
  have first : filterElements
      "<filter name='sepia' value='true'/><filter name='contrast' value='2'/>" =
      [⟨"filter".toList, " name='sepia' value='true'".toList⟩,
        ⟨"filter".toList, " name='contrast' value='2'".toList⟩] := by decide +kernel
  have second : filterElements
      "<f><filter name='contrast' value='2'/><filter name='sepia' value='true'></f><!-- " =
      [⟨"filter".toList, " name='contrast' value='2'".toList⟩,
        ⟨"filter".toList, " name='sepia' value='true'".toList⟩] := by decide +kernel
  refine ⟨unnamed .brightness (by decide +kernel), ?_, (rearranged _ ?_).2⟩
  · have said := named .contrast [⟨"filter".toList, " name='sepia' value='true'".toList⟩]
      ⟨"filter".toList, " name='contrast' value='2'".toList⟩ [] first (by decide +kernel)
      (by decide +kernel)
    have value : (Entry.ofElement ⟨"filter".toList, " name='contrast' value='2'".toList⟩).value =
        some ['2'] := by decide +kernel
    rwa [value] at said
  · rw [first, second]
    exact @rearranged_swap [] [] _ _ (by decide +kernel)

end PhotoCapture.Filter
