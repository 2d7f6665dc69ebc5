import PhotoCapture.Markup.Piece

namespace PhotoCapture.Markup

/-- An element as its start tag or empty tag writes it: a name up to the first white space, and
the text of its attributes. -/
structure Element where
  name : List Char
  attributes : List Char
deriving DecidableEq

def Element.ofBody (body : List Char) : Element :=
  ⟨body.takeWhile (!isSpace ·), body.dropWhile (!isSpace ·)⟩

/-- The name in a closing tag, without the white space after it. -/
def closingName (body : List Char) : List Char :=
  if body.all isSpace then body else (body.reverse.dropWhile isSpace).reverse

/-- A place in a text, with the names of the open elements, the innermost first. -/
structure Reader where
  unclosed : List (List Char)
  rest : List Char
deriving DecidableEq

inductive Delivery where
  | finished
  | broken
  | event (element : Option Element) (reader : Reader)
deriving DecidableEq

/-- The next event: an element, or none for any other piece of markup. -/
def Reader.next (r : Reader) : Delivery :=
  match cut r.rest with
  | .finished => .finished
  | .broken => .broken
  | .piece (.start body) rest =>
    .event (some (.ofBody body)) ⟨(Element.ofBody body).name :: r.unclosed, rest⟩
  | .piece (.empty body) rest => .event (some (.ofBody body)) ⟨r.unclosed, rest⟩
  | .piece (.close body) rest =>
    match r.unclosed with
    | [] => .broken
    | name :: outer => if closingName body = name then .event none ⟨outer, rest⟩ else .broken
  | .piece _ rest => .event none ⟨r.unclosed, rest⟩

theorem Reader.next_length {r after : Reader} {element : Option Element}
    (h : r.next = .event element after) : after.rest.length < r.rest.length := by
  unfold Reader.next at h
  split at h
  · simp at h
  · simp at h
  · rename_i hc; cases h; exact cut_length hc
  · rename_i hc; cases h; exact cut_length hc
  · rename_i hc
    split at h
    · simp at h
    · split at h
      · cases h; exact cut_length hc
      · simp at h
  · cases h; exact cut_length ‹_›

/-- How reading ends: at the end of the text, with the elements still open, or before it. -/
inductive Ending where
  | finished (unclosed : List (List Char))
  | broken
deriving DecidableEq

def Reader.read (r : Reader) : List (Option Element) × Ending :=
  match h : r.next with
  | .finished => ([], .finished r.unclosed)
  | .broken => ([], .broken)
  | .event element after =>
    have := Reader.next_length h
    let (events, ending) := after.read
    (element :: events, ending)
termination_by r.rest.length

/-- The elements that a text delivers before it ends or breaks. -/
def elements (text : List Char) : List Element :=
  (Reader.mk [] text).read.1.filterMap id

end PhotoCapture.Markup
