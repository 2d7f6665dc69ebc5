import PhotoCapture.Filter.Basic
import PhotoCapture.Markup.Reader
import PhotoCapture.Markup.Attribute
import PhotoCapture.Markup.Reference
import PhotoCapture.Decimal.Reading

namespace PhotoCapture.Filter

inductive Field where
  | brightness
  | contrast
  | saturation
  | sepia
deriving DecidableEq

def Field.ofName? (name : List Char) : Option Field :=
  if name = "brightness".toList then some .brightness
  else if name = "contrast".toList then some .contrast
  else if name = "saturation".toList then some .saturation
  else if name = "sepia".toList then some .sepia
  else none

/-- The factor that a value writes; anything but a finite number is one. -/
def factor (value : Option (List Char)) : Single :=
  match value >>= Binary.ofText? with
  | some x => if x.isFinite then x else 1
  | none => 1

def set (filter : Filter Single) (field : Field) (value : Option (List Char)) : Filter Single :=
  match field with
  | .brightness => { filter with brightness := factor value }
  | .contrast => { filter with contrast := factor value }
  | .saturation => { filter with saturation := factor value }
  | .sepia => { filter with sepia := value = some "true".toList }

/-- What the attributes of an element give: the last readable `name` and `value`. -/
structure Entry where
  name : Option (List Char)
  value : Option (List Char)
deriving DecidableEq

def Entry.add (entry : Entry) : Markup.Attribute → Entry
  | .malformed => entry
  | .pair key raw =>
    match Markup.unescape? raw with
    | none => entry
    | some text =>
      if key = "name".toList then { entry with name := some text }
      else if key = "value".toList then { entry with value := some text }
      else entry

def Entry.ofElement (element : Markup.Element) : Entry :=
  (Markup.attributes element.attributes).foldl Entry.add ⟨none, none⟩

/-- The field that an element sets, and the value for it. -/
def setting? (element : Markup.Element) : Option (Field × Option (List Char)) :=
  if element.name = "filter".toList then
    let entry := Entry.ofElement element
    (entry.name >>= Field.ofName?).map fun field => (field, entry.value)
  else none

def ofElements (elements : List Markup.Element) : Filter Single :=
  (elements.filterMap setting?).foldl (fun filter (field, value) => filter.set field value) neutral

/-- The filter that a text describes by a run of `<filter name="…" value="…"/>` elements. Reading
never fails: a bad value sets its field to the default, an unknown name sets nothing, and broken
markup ends the description. -/
def ofDescription (text : String) : Filter Single := ofElements (Markup.elements text.toList)

end PhotoCapture.Filter
