import PhotoCapture.Proofs.Filter.Description
import PhotoCapture.Proofs.Markup.Repetition

namespace PhotoCapture.Markup

theorem unescape?_of_notMem {cs : List Char} (plain : '&' ∉ cs) : unescape? cs = some cs := by
  rw [unescape?]
  induction cs with
  | nil => rfl
  | cons c cs ih =>
    obtain ⟨other, others⟩ : '&' ≠ c ∧ '&' ∉ cs := by simpa using plain
    simp [replaceReferences?, other.symm, ih others]

end PhotoCapture.Markup

namespace PhotoCapture.Filter

open Markup (Attribute Element Reader Written attributesAfter)

variable {written before after : List Written} {key : List Char} {rest : List Char}

/-- The value of the first attribute with a key. -/
def valueOf (key : List Char) (written : List Written) : Option (List Char) :=
  (written.find? (·.key = key)).map Written.value

def given (key : List Char) (value : Option (List Char)) (a : Written) : Option (List Char) :=
  if a.key = key then some a.value else value

theorem add_item (entry : Entry) (a : Written) :
    entry.add a.item = ⟨given "name".toList entry.name a, given "value".toList entry.value a⟩ := by
  rw [Written.item, Entry.add, Markup.unescape?_of_notMem a.reference_notMem]
  dsimp only
  by_cases name : a.key = "name".toList
  · have other : a.key ≠ "value".toList := fun same => absurd (name.symm.trans same) (by decide)
    rw [if_pos name, given, given, if_pos name, if_neg other]
  · rw [if_neg name, given, given, if_neg name]
    split <;> rfl

theorem foldl_add_items (entry : Entry) (written : List Written) :
    (written.map Written.item).foldl Entry.add entry =
      ⟨written.foldl (given "name".toList) entry.name,
        written.foldl (given "value".toList) entry.value⟩ := by
  induction written generalizing entry with
  | nil => rfl
  | cons a written ih =>
    rw [List.map_cons, List.foldl_cons, ih, add_item, List.foldl_cons, List.foldl_cons]

/-- Among the attributes of new keys, the last one with a key is the first one written. -/
theorem foldl_given_firstsAfter (key : List Char) (seen : List (List Char))
    (written : List Written) (value : Option (List Char)) :
    (Written.firstsAfter seen written).foldl (given key) value =
      if key ∈ seen then value else (valueOf key written).or value := by
  induction written generalizing seen value with
  | nil => simp [Written.firstsAfter, valueOf]
  | cons a written ih =>
    have found : valueOf key (a :: written) =
        if a.key = key then some a.value else valueOf key written := by
      by_cases same : a.key = key <;> simp [valueOf, same]
    rw [found]
    by_cases repeated : a.key ∈ seen
    · rw [Written.firstsAfter_repeated repeated, ih]
      by_cases same : a.key = key
      · rw [if_pos (same ▸ repeated), if_pos (same ▸ repeated)]
      · rw [if_neg same]
    · rw [Written.firstsAfter_new repeated, List.foldl_cons, ih, given]
      by_cases same : a.key = key
      · rw [if_pos same, if_pos same, if_pos (same ▸ List.mem_cons_self),
          if_neg (same ▸ repeated), Option.some_or]
      · simp only [if_neg same, List.mem_cons, Ne.symm same, false_or]

theorem foldl_given_firsts (key : List Char) (written : List Written) :
    (Written.firsts written).foldl (given key) none = valueOf key written := by
  rw [Written.firsts, foldl_given_firstsAfter, if_neg List.not_mem_nil, Option.or_none]

theorem valueOf_firsts (key : List Char) (written : List Written) :
    valueOf key (Written.firsts written) = valueOf key written := by
  rw [← foldl_given_firsts, Written.firsts, Written.firsts, Written.firstsAfter_firstsAfter]
  exact foldl_given_firsts key written

theorem foldl_add_readable (entry : Entry) (items : List Attribute) :
    (Written.readable items).foldl Entry.add entry = items.foldl Entry.add entry := by
  have step (entry : Entry) (item : Attribute) :
      (if item ≠ .malformed then entry.add item else entry) = entry.add item := by
    cases item <;> rfl
  rw [Written.readable, List.foldl_filter]
  simp only [decide_eq_true_eq, step]

/-- Behind attributes whose repetitions are harmless, reading goes on with their first values. -/
theorem foldl_add_attributesAfter (harmless : ∀ a ∈ Written.repeats written, a.Harmless)
    (follows : Written.Follows rest) :
    (attributesAfter [] (Written.textOf written ++ rest)).foldl Entry.add ⟨none, none⟩ =
      (attributesAfter (Written.keysAfter [] written) rest).foldl Entry.add
        ⟨valueOf "name".toList written, valueOf "value".toList written⟩ := by
  rw [← foldl_add_readable, Written.readable_attributesAfter [] written harmless follows,
    List.foldl_append, foldl_add_readable, ← Written.firsts, foldl_add_items, foldl_given_firsts,
    foldl_given_firsts]

theorem ofElement_of_harmless (name : List Char)
    (harmless : ∀ a ∈ Written.repeats written, a.Harmless) :
    Entry.ofElement ⟨name, Written.textOf written⟩ =
      ⟨valueOf "name".toList written, valueOf "value".toList written⟩ := by
  have all := foldl_add_attributesAfter harmless Written.follows_nil
  rw [List.append_nil] at all
  rw [Entry.ofElement, Markup.attributes, all, Written.attributesAfter_of_none rfl]
  rfl

theorem ofElement_firsts (name : List Char) (written : List Written) :
    Entry.ofElement ⟨name, Written.textOf (Written.firsts written)⟩ =
      ⟨valueOf "name".toList written, valueOf "value".toList written⟩ := by
  have single : ∀ a ∈ Written.repeats (Written.firsts written), a.Harmless := by
    simp [Written.repeats, Written.firsts, Written.repeatsAfter_firstsAfter]
  rw [ofElement_of_harmless name single, valueOf_firsts, valueOf_firsts]

/-- From a repetition on, the rest of its value is read in front of what is written behind it. -/
theorem ofElement_of_repeated (name : List Char) (before : List Written) {a : Written}
    (after : List Written) (harmless : ∀ b ∈ Written.repeats before, b.Harmless)
    (repeated : a.key ∈ before.map Written.key) :
    Entry.ofElement ⟨name, Written.textOf (before ++ a :: after)⟩ =
      (attributesAfter (Written.keysAfter [] before)
        (Markup.skipValue a.quoted ++ Written.textOf after)).foldl Entry.add
          ⟨valueOf "name".toList before, valueOf "value".toList before⟩ := by
  have seen : a.key ∈ Written.keysAfter [] before := Written.mem_keysAfter.mpr (.inr repeated)
  have follows : Written.Follows (Written.textOf after) := by
    simpa using Written.follows_textOf_append after Written.follows_nil
  have text : Written.textOf (before ++ a :: after) =
      Written.textOf before ++ (a.text ++ Written.textOf after) := by
    simp [Written.textOf]
  rw [Entry.ofElement, Markup.attributes, text,
    foldl_add_attributesAfter harmless (Written.follows_text a _),
    Written.attributesAfter_repeated seen, Written.skipValue_quoted a follows]
  rfl

theorem setting?_congr {name attributes attributes' : List Char}
    (same : Entry.ofElement ⟨name, attributes⟩ = Entry.ofElement ⟨name, attributes'⟩) :
    setting? ⟨name, attributes⟩ = setting? ⟨name, attributes'⟩ := by
  simp only [setting?, same]

theorem setting?_of_entry {element : Element} {name : List Char} {value : Option (List Char)}
    {field : Field} (filter : element.name = "filter".toList)
    (entry : Entry.ofElement element = ⟨some name, value⟩)
    (known : Field.ofName? name = some field) : setting? element = some (field, value) := by
  rw [setting?, if_pos filter, entry]
  exact congrArg (Option.map _) known

section Descriptions

variable {p : String} {first second : List Written}

theorem elements_filter (read : (Reader.mk [] p.toList).read.2 ≠ .broken) :
    ∃ unclosed, ∀ (written : List Written) (q : String),
      Markup.elements (p ++ String.ofList (Written.tag "filter".toList written) ++ q).toList =
        Markup.elements p.toList ++ ⟨"filter".toList, Written.textOf written⟩ ::
          (Reader.mk unclosed q.toList).elements := by
  obtain ⟨unclosed, parts⟩ := elements_append_of_read read
  refine ⟨unclosed, fun written q => ?_⟩
  rw [String.toList_append, String.toList_append, String.toList_ofList, List.append_assoc, parts,
    Written.elements_tag (by decide) (by decide)]

/-- Between a text that is read to its end and any other text, a filter element sets what its
attributes come to. -/
theorem ofDescription_congr (read : (Reader.mk [] p.toList).read.2 ≠ .broken) (q : String)
    (same : Entry.ofElement ⟨"filter".toList, Written.textOf first⟩ =
      Entry.ofElement ⟨"filter".toList, Written.textOf second⟩) :
    ofDescription (p ++ String.ofList (Written.tag "filter".toList first) ++ q) =
      ofDescription (p ++ String.ofList (Written.tag "filter".toList second) ++ q) := by
  obtain ⟨unclosed, elements⟩ := elements_filter read
  rw [ofDescription, ofDescription, elements, elements, ofElements, ofElements,
    List.filterMap_append, List.filterMap_append, List.filterMap_cons, List.filterMap_cons,
    setting?_congr same]

theorem ofDescription_of_entry {name : List Char} {value : Option (List Char)} {field : Field}
    (entry : Entry.ofElement ⟨"filter".toList, Written.textOf first⟩ = ⟨some name, value⟩)
    (known : Field.ofName? name = some field) :
    ofDescription (String.ofList (Written.tag "filter".toList first)) =
      neutral.set field value := by
  have setting := setting?_of_entry rfl entry known
  have nothing : (Reader.mk [] []).elements = [] := by
    rw [Reader.elements, Reader.read_finished rfl]
    rfl
  have elements : (Reader.mk [] (Written.tag "filter".toList first)).elements =
      [⟨"filter".toList, Written.textOf first⟩] := by
    rw [← List.append_nil (Written.tag _ first), Written.elements_tag (by decide) (by decide),
      nothing]
  rw [ofDescription, String.toList_ofList]
  change ofElements (Reader.mk [] (Written.tag "filter".toList first)).elements = _
  rw [elements, ofElements, List.filterMap_cons, setting]
  rfl

end Descriptions

/-- As long as no repeated value has an equals sign behind white space, the first attribute of a
key decides and its repetitions change nothing. In any case, the part of a repeated value from its
first white space on is read as attributes in front of those behind it. -/
theorem repetitions_end_at_white_space (written : List Written) :
    ((∀ a ∈ Written.repeats written, a.Harmless) →
      Entry.ofElement ⟨"filter".toList, Written.textOf written⟩ =
        ⟨valueOf "name".toList written, valueOf "value".toList written⟩ ∧
      ∀ p q : String, (Reader.mk [] p.toList).read.2 ≠ .broken →
        ofDescription (p ++ String.ofList (Written.tag "filter".toList written) ++ q) =
          ofDescription
            (p ++ String.ofList (Written.tag "filter".toList (Written.firsts written)) ++ q)) ∧
    ∀ before a after, written = before ++ a :: after →
      (∀ b ∈ Written.repeats before, b.Harmless) → a.key ∈ before.map Written.key →
      Entry.ofElement ⟨"filter".toList, Written.textOf written⟩ =
        (attributesAfter (Written.keysAfter [] before)
          (Markup.skipValue a.quoted ++ Written.textOf after)).foldl Entry.add
            ⟨valueOf "name".toList before, valueOf "value".toList before⟩ := by
  refine ⟨fun harmless => ?_, ?_⟩
  · have decided := ofElement_of_harmless "filter".toList harmless
    exact ⟨decided, fun p q read => ofDescription_congr read q
      (decided.trans (ofElement_firsts "filter".toList written).symm)⟩
  · rintro before a after rfl harmless repeated
    exact ofElement_of_repeated "filter".toList before after harmless repeated

/-- Blanks, brackets, slashes and the other quote in repeated values, and then an equals sign
behind a blank. -/
theorem blanks_in_repeated_values :
    let first : Written :=
      { gap := [' '], key := "name".toList, quote := '"', value := "contrast".toList }
    let repeated : Written :=
      { gap := ['\n'], key := "name".toList, quote := '\x27', value := "a=b \"/> c".toList }
    let factor : Written :=
      { gap := [' '], key := "value".toList, quote := '\x27', value := "2".toList }
    let second : Written :=
      { gap := [' '], key := "name".toList, quote := '\x27', value := "a value=\"3\"".toList }
    let written := [first, repeated, factor]
    let reader := Reader.mk [] "<a>".toList
    ((∀ a ∈ Written.repeats written, a.Harmless) ∧ reader.read.2 ≠ .broken ∧
      ofDescription ("<a>" ++ String.ofList (Written.tag "filter".toList written) ++ "</a>") =
        ofDescription ("<a>" ++
          String.ofList (Written.tag "filter".toList (Written.firsts written)) ++ "</a>")) ∧
    Entry.ofElement ⟨"filter".toList, Written.textOf (written ++ [second])⟩ =
      (attributesAfter (Written.keysAfter [] written)
        (Markup.skipValue second.quoted ++ Written.textOf [])).foldl Entry.add
          ⟨valueOf "name".toList written, valueOf "value".toList written⟩ := by
  intro first repeated factor second written reader
  have harmless : ∀ a ∈ Written.repeats written, a.Harmless := by decide +kernel
  have read : reader.read.2 ≠ .broken := by decide +kernel
  refine ⟨⟨harmless, read, ?_⟩, ?_⟩
  · exact ((repetitions_end_at_white_space written).1 harmless).2 "<a>" "</a>" read
  · exact (repetitions_end_at_white_space (written ++ [second])).2 written second [] rfl harmless
      (by decide +kernel)

/-- A repeated name whose value writes an attribute sets that attribute, and one whose value opens
a quote takes the attribute behind it away. -/
theorem equals_sign_in_repeated_value_is_read :
    let first : Written :=
      { gap := [' '], key := "name".toList, quote := '\x27', value := "contrast".toList }
    let writing : Written :=
      { gap := [' '], key := "name".toList, quote := '\x27', value := "sepia value=\"2\"".toList }
    let opening : Written :=
      { gap := [' '], key := "name".toList, quote := '\x27', value := "a b=".toList }
    let factor : Written :=
      { gap := [' '], key := "value".toList, quote := '\x27', value := "2".toList }
    let contrast (written : List Written) :=
      (ofDescription (String.ofList (Written.tag "filter".toList written))).contrast
    contrast [first, writing] = 2.0 ∧ contrast (Written.firsts [first, writing]) = 1 ∧
      contrast [first, opening, factor] = 1 ∧
      contrast (Written.firsts [first, opening, factor]) = 2.0 := by
  intro first writing opening factor contrast
  have contrast_eq {written : List Written} {value : Option (List Char)}
      (entry : Entry.ofElement ⟨"filter".toList, Written.textOf written⟩ =
        ⟨some "contrast".toList, value⟩) : contrast written = Filter.factor value :=
    congrArg Filter.contrast (ofDescription_of_entry entry rfl)
  have harmless : ∀ b ∈ Written.repeats [first], b.Harmless := by decide
  have two : Filter.factor (some "2".toList) = 2.0 := by decide +kernel
  have set : Entry.ofElement ⟨"filter".toList, Written.textOf [first, writing]⟩ =
      ⟨some "contrast".toList, some "2".toList⟩ :=
    (ofElement_of_repeated _ [first] [] harmless (by decide)).trans (by decide +kernel)
  have lost : Entry.ofElement ⟨"filter".toList, Written.textOf [first, opening, factor]⟩ =
      ⟨some "contrast".toList, none⟩ :=
    (ofElement_of_repeated _ [first] [factor] harmless (by decide)).trans (by decide +kernel)
  exact ⟨(contrast_eq set).trans two, contrast_eq (ofElement_firsts _ [first, writing]),
    contrast_eq lost, (contrast_eq (ofElement_firsts _ [first, opening, factor])).trans two⟩

end PhotoCapture.Filter
