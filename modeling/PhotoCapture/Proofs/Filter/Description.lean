import PhotoCapture.Filter.Description
import PhotoCapture.Proofs.Markup.Locality

namespace PhotoCapture.Filter

open Markup (Element Reader)

variable {field other : Field} {value : Option (List Char)} {filter start : Filter Single}

/-- What a field holds: sepia is a switch, the others are factors. -/
def Field.Value : Field → Type
  | .sepia => Bool
  | .brightness | .contrast | .saturation => Single

def get (filter : Filter Single) : (field : Field) → field.Value
  | .brightness => filter.brightness
  | .contrast => filter.contrast
  | .saturation => filter.saturation
  | .sepia => filter.sepia

theorem ext_get {g : Filter Single} (h : ∀ field, filter.get field = g.get field) : filter = g := by
  obtain ⟨b, c, s, sepia⟩ := filter
  obtain ⟨b', c', s', sepia'⟩ := g
  obtain rfl : b = b' := h .brightness
  obtain rfl : c = c' := h .contrast
  obtain rfl : s = s' := h .saturation
  obtain rfl : sepia = sepia' := h .sepia
  rfl

theorem get_set_of_ne (h : other ≠ field) : (filter.set other value).get field = filter.get field := by
  cases other <;> cases field <;>
    simp only [ne_eq, not_true_eq_false, reduceCtorEq, not_false_eq_true] at h <;> rfl

theorem get_set (filter start : Filter Single) (field : Field) (value : Option (List Char)) :
    (filter.set field value).get field = (start.set field value).get field := by
  cases field <;> rfl

def apply (start : Filter Single) (settings : List (Field × Option (List Char))) : Filter Single :=
  settings.foldl (fun filter (field, value) => filter.set field value) start

theorem get_apply_of_unset {settings : List (Field × Option (List Char))}
    (h : ∀ s ∈ settings, s.1 ≠ field) : (start.apply settings).get field = start.get field := by
  induction settings generalizing start with
  | nil => rfl
  | cons s rest ih =>
    have later : ((start.set s.1 s.2).apply rest).get field = (start.set s.1 s.2).get field :=
      ih fun t ht => h t (List.mem_cons_of_mem s ht)
    exact later.trans (get_set_of_ne (h s List.mem_cons_self))

theorem get_apply_of_set {settings : List (Field × Option (List Char))}
    (h : ∃ s ∈ settings, s.1 = field) (start filter : Filter Single) :
    (start.apply settings).get field = (filter.apply settings).get field := by
  induction settings generalizing start filter with
  | nil => simp at h
  | cons s rest ih =>
    change ((start.set s.1 s.2).apply rest).get field = ((filter.set s.1 s.2).apply rest).get field
    -- Unless the field is set again later, this setting decides it.
    by_cases later : ∃ t ∈ rest, t.1 = field
    · exact ih later _ _
    · have unset : ∀ t ∈ rest, t.1 ≠ field := fun t ht same => later ⟨t, ht, same⟩
      obtain ⟨t, ht, same⟩ := h
      rcases List.mem_cons.mp ht with rfl | ht
      · rw [get_apply_of_unset unset, get_apply_of_unset unset, ← same]
        exact get_set _ _ _ _
      · exact absurd same (unset t ht)

structure IsFinite (filter : Filter Single) : Prop where
  brightness : filter.brightness.isFinite = true
  contrast : filter.contrast.isFinite = true
  saturation : filter.saturation.isFinite = true

theorem isFinite_factor (value : Option (List Char)) : (factor value).isFinite = true := by
  unfold factor
  split
  next x _ =>
    split
    next finite => exact finite
    next => decide
  next => decide

theorem IsFinite.set (h : filter.IsFinite) (field : Field) (value : Option (List Char)) :
    (filter.set field value).IsFinite := by
  cases field with
  | brightness => exact { h with brightness := isFinite_factor value }
  | contrast => exact { h with contrast := isFinite_factor value }
  | saturation => exact { h with saturation := isFinite_factor value }
  | sepia => exact { h with }

theorem IsFinite.apply (h : start.IsFinite) (settings : List (Field × Option (List Char))) :
    (start.apply settings).IsFinite := by
  induction settings generalizing start with
  | nil => exact h
  | cons s rest ih => exact ih (h.set s.1 s.2)

theorem isFinite_ofElements (elements : List Element) : (ofElements elements).IsFinite :=
  IsFinite.apply ⟨by decide, by decide, by decide⟩ (elements.filterMap setting?)

/-- The element is a filter element that names the field. -/
def Names (element : Element) (field : Field) : Prop :=
  element.name = "filter".toList ∧ (Entry.ofElement element).name >>= Field.ofName? = some field

instance (element : Element) (field : Field) : Decidable (Names element field) :=
  inferInstanceAs (Decidable (_ ∧ _))

theorem names_iff {element : Element} :
    Names element field ↔ ∃ s, setting? element = some s ∧ s.1 = field := by
  unfold Names setting?
  split
  next h =>
    cases hf : (Entry.ofElement element).name >>= Field.ofName? <;> simp [h, hf]
  next h => simp only [h, false_and, reduceCtorEq, exists_false]

def NamedIn (field : Field) (elements : List Element) : Prop :=
  ∃ element ∈ elements, Names element field

instance (field : Field) (elements : List Element) : Decidable (NamedIn field elements) :=
  inferInstanceAs (Decidable (∃ element ∈ elements, _))

theorem namedIn_iff {elements : List Element} :
    NamedIn field elements ↔ ∃ s ∈ elements.filterMap setting?, s.1 = field := by
  simp only [NamedIn, names_iff, List.mem_filterMap]
  constructor
  · rintro ⟨element, he, s, hs, same⟩
    exact ⟨s, ⟨element, he, hs⟩, same⟩
  · rintro ⟨s, ⟨element, he, hs⟩, same⟩
    exact ⟨element, he, s, hs, same⟩

theorem get_ofElements_append (field : Field) (first second : List Element) :
    (ofElements (first ++ second)).get field =
      if NamedIn field second then (ofElements second).get field
      else (ofElements first).get field := by
  have parts : ofElements (first ++ second) =
      (ofElements first).apply (second.filterMap setting?) := by
    rw [ofElements, List.filterMap_append, List.foldl_append]
    rfl
  rw [parts]
  split
  next named => exact get_apply_of_set (namedIn_iff.mp named) _ _
  next unnamed =>
    exact get_apply_of_unset fun s hs same => unnamed (namedIn_iff.mpr ⟨s, hs, same⟩)

theorem elements_append {p : List Char} (complete : (Reader.mk [] p).read.2 = .finished [])
    (q : List Char) : Markup.elements (p ++ q) = Markup.elements p ++ Markup.elements q :=
  Reader.elements_append complete q

/-- Behind a text that is read to its end, reading goes on inside the elements it leaves open. -/
theorem elements_append_of_read {p : List Char} (read : (Reader.mk [] p).read.2 ≠ .broken) :
    ∃ unclosed, ∀ q, Markup.elements (p ++ q) =
      Markup.elements p ++ (Reader.mk unclosed q).elements := by
  cases h : (Reader.mk [] p).read.2 with
  | finished unclosed => exact ⟨unclosed, Reader.elements_append h⟩
  | broken => exact absurd h read

/-- Behind a complete description, another one decides the fields that it names before it ends or
breaks, and the first one decides the others. -/
theorem ofDescription_append {p : String}
    (complete : (Reader.mk [] p.toList).read.2 = .finished []) (q : String) :
    (∀ field, (ofDescription (p ++ q)).get field =
      if NamedIn field (Markup.elements q.toList) then (ofDescription q).get field
      else (ofDescription p).get field) ∧
    ((Reader.mk [] q.toList).next = .broken → ofDescription (p ++ q) = ofDescription p) := by
  have fields (field : Field) : (ofDescription (p ++ q)).get field =
      if NamedIn field (Markup.elements q.toList) then (ofDescription q).get field
      else (ofDescription p).get field := by
    simp only [ofDescription]
    rw [String.toList_append, elements_append complete, get_ofElements_append]
  refine ⟨fields, fun broken => ext_get fun field => ?_⟩
  have nothing : Markup.elements q.toList = [] := by
    rw [Markup.elements, Reader.read_broken broken]
    rfl
  rw [fields, nothing, if_neg (by simp [NamedIn])]

/-- A description that breaks in a comment, and one that starts with a closing tag, behind one
that is complete. -/
theorem broken_halves :
    let p := "<a><filter name='contrast' value='2'/></a>"
    let q := "<filter name='sepia' value='true'/><!-- "
    (ofDescription (p ++ q)).get .contrast = (ofDescription p).get .contrast ∧
      (ofDescription (p ++ q)).get .sepia = (ofDescription q).get .sepia ∧
      ofDescription (p ++ "</a>") = ofDescription p := by
  have complete : (Reader.mk [] "<a><filter name='contrast' value='2'/></a>".toList).read.2 =
      .finished [] := by decide +kernel
  have fields := (ofDescription_append complete "<filter name='sepia' value='true'/><!-- ").1
  have stray := (ofDescription_append complete "</a>").2 (by decide +kernel)
  exact ⟨(fields .contrast).trans (if_neg (by decide +kernel)),
    (fields .sepia).trans (if_pos (by decide +kernel)), stray⟩

end PhotoCapture.Filter
