import PhotoCapture.Proofs.Filter.Description
import PhotoCapture.Proofs.Markup.Progress

namespace PhotoCapture.Filter

open Markup (Advances Attribute Element Reader attributes attributesAfter nextAttribute?)

variable {steps : Nat} {filter : Filter Single}

/-- The entry with all attributes from a place on, unless the steps run out before the end. -/
def Entry.addWithin : Nat → Entry → List (List Char) → List Char → Option Entry
  | 0, _, _, _ => none
  | steps + 1, entry, seen, cs =>
    match nextAttribute? seen cs with
    | none => some entry
    | some (item, keys, rest) => addWithin steps (entry.add item) keys rest

/-- The entry that an element writes, in one step more than it has characters. -/
def Entry.boundedOfElement (element : Element) : Option Entry :=
  Entry.addWithin (element.length + 1) ⟨none, none⟩ [] element.attributes

def enter (filter : Filter Single) (entry : Entry) : Filter Single :=
  match entry.name >>= Field.ofName? with
  | some field => filter.set field entry.value
  | none => filter

def addElement (filter : Filter Single) (element : Element) : Option (Filter Single) :=
  if element.name = "filter".toList then (Entry.boundedOfElement element).map filter.enter
  else some filter

/-- The filter after all events from a place on, unless the steps run out before the text ends or
breaks. -/
def readWithin : Nat → Filter Single → Reader → Option (Filter Single)
  | 0, _, _ => none
  | steps + 1, filter, r =>
    match r.next with
    | .finished | .broken => some filter
    | .event none next => readWithin steps filter next
    | .event (some element) next =>
      (filter.addElement element).bind fun filter => readWithin steps filter next

/-- The filter that a text describes, in one step more than the text has characters. -/
def boundedOfDescription (text : String) : Option (Filter Single) :=
  readWithin (text.length + 1) neutral (Reader.mk [] text.toList)

theorem Entry.addWithin_eq {cs : List Char} (enough : cs.length < steps) (entry : Entry)
    (seen : List (List Char)) :
    entry.addWithin steps seen cs = some ((attributesAfter seen cs).foldl Entry.add entry) := by
  induction steps generalizing cs entry seen with
  | zero => exact absurd enough (Nat.not_lt_zero _)
  | succ steps ih =>
    rw [Entry.addWithin]
    cases h : nextAttribute? seen cs with
    | none => rw [Markup.Written.attributesAfter_of_none h, List.foldl_nil]
    | some found =>
      obtain ⟨item, keys, rest⟩ := found
      have shorter := (Markup.nextAttribute?_advances h).length_lt
      rw [Markup.Written.attributesAfter_of_next h, List.foldl_cons]
      exact ih (by omega) (entry.add item) keys

theorem Entry.boundedOfElement_eq (element : Element) :
    Entry.boundedOfElement element = some (Entry.ofElement element) :=
  Entry.addWithin_eq (Nat.lt_succ_of_le (Nat.le_add_left _ _)) _ _

theorem addElement_eq (filter : Filter Single) (element : Element) :
    filter.addElement element = some (filter.apply (setting? element).toList) := by
  unfold addElement setting?
  split
  next =>
    rw [Entry.boundedOfElement_eq, Option.map_some, enter]
    dsimp only
    cases (Entry.ofElement element).name >>= Field.ofName? <;> rfl
  next => rfl

theorem readWithin_eq {r : Reader} (enough : r.rest.length < steps) (filter : Filter Single) :
    filter.readWithin steps r = some (filter.apply (r.elements.filterMap setting?)) := by
  -- On the steps, with more of them than characters: an event takes one step and a character.
  induction steps generalizing r filter with
  | zero => exact absurd enough (Nat.not_lt_zero _)
  | succ steps ih =>
    rw [readWithin]
    cases h : r.next with
    | finished => rw [Reader.elements, Reader.read_finished h]; rfl
    | broken => rw [Reader.elements, Reader.read_broken h]; rfl
    | event element next =>
      have shorter := (Reader.next_advances h).length_lt
      have further := ih (r := next) (by omega)
      rw [Reader.elements_event h]
      cases element with
      | none => exact further filter
      | some element =>
        have parts : (element :: next.elements).filterMap setting? =
            (setting? element).toList ++ next.elements.filterMap setting? := by
          cases same : setting? element <;> simp [same]
        simp only [addElement_eq, Option.bind_some, further, Option.toList_some,
          List.singleton_append, parts, apply, List.foldl_append]

/-- Every event and every item of an attribute list takes at least one character, so a text has no
more events than characters and an element no more items. With one more step for the end, neither
the loop over the events nor the one over the attributes runs out of steps. -/
theorem descriptions_end_within_their_length (text : String) :
    (∀ (r next : Reader) (element : Option Element), r.next = .event element next →
      Advances r.rest next.rest) ∧
    (∀ (seen keys : List (List Char)) (cs rest : List Char) (item : Attribute),
      nextAttribute? seen cs = some (item, keys, rest) → Advances cs rest) ∧
    (Reader.mk [] text.toList).read.1.length ≤ text.length ∧
    (∀ element : Element, (attributes element.attributes).length ≤ element.length ∧
      Entry.boundedOfElement element = some (Entry.ofElement element)) ∧
    boundedOfDescription text = some (ofDescription text) := by
  refine ⟨fun r next element => Reader.next_advances,
    fun seen keys cs rest item => Markup.nextAttribute?_advances, ?_, fun element => ⟨?_, ?_⟩, ?_⟩
  · rw [← String.length_toList]
    exact Reader.length_events_le _
  · exact (Markup.length_attributesAfter_le [] _).trans (Nat.le_add_left _ _)
  · exact Entry.boundedOfElement_eq element
  · exact readWithin_eq (by rw [String.length_toList]; exact Nat.lt_succ_self _) neutral

/-- An element with a key without a value, a value without quotes and a repeated key, before a
quotation mark that is not closed. -/
theorem malformed_attributes_end :
    let text := "<filter a b=c name='sepia' name='x' value='true'/><filter name='"
    let attributes := " b=c name='sepia' name='x' value='true'".toList
    (Reader.mk [] text.toList).next = .event
        (some (.ofBody "filter a b=c name='sepia' name='x' value='true'".toList))
        ⟨[], "<filter name='".toList⟩ ∧
      Advances text.toList "<filter name='".toList ∧
      nextAttribute? [] attributes = some (.malformed, ["b".toList],
        " name='sepia' name='x' value='true'".toList) ∧
      Advances attributes " name='sepia' name='x' value='true'".toList ∧
      boundedOfDescription text = some (ofDescription text) := by
  intro text attributes
  have bounds := descriptions_end_within_their_length text
  have event : (Reader.mk [] text.toList).next = .event
      (some (.ofBody "filter a b=c name='sepia' name='x' value='true'".toList))
      ⟨[], "<filter name='".toList⟩ := by decide +kernel
  have item : nextAttribute? [] attributes = some (.malformed, ["b".toList],
      " name='sepia' name='x' value='true'".toList) := by decide +kernel
  exact ⟨event, bounds.1 _ _ _ event, item, bounds.2.1 _ _ _ _ _ item, bounds.2.2.2.2⟩

end PhotoCapture.Filter
