import PhotoCapture.Json.Decoder
import PhotoCapture.Json.Value

namespace PhotoCapture.Json

/-- White space between the parts of a text. -/
def IsGap (cs : List Char) : Prop := ∀ c ∈ cs, isSpace c = true

/-- What may follow a value: the end, white space, a comma or a closing bracket. -/
def Ends (rest : List Char) : Prop :=
  ∀ c ∈ rest.head?, isSpace c = true ∨ c = ',' ∨ c = ']' ∨ c = '\x7d'

section Texts

/-- Four hexadecimal digits and the number that they write. -/
inductive IsCode : List Char → Nat → Prop
  | digits {a b c d : Char} {i j k l : Nat} (ha : Numeral.hexValue? a = some i)
      (hb : Numeral.hexValue? b = some j) (hc : Numeral.hexValue? c = some k)
      (hd : Numeral.hexValue? d = some l) :
      IsCode [a, b, c, d] (4096 * i + 256 * j + 16 * k + l)

/-- The letters behind a backslash, each with the character that it stands for. -/
def escapes : List (Char × Char) :=
  [('"', '"'), ('\\', '\\'), ('/', '/'), ('b', '\x08'), ('f', '\x0c'), ('n', '\n'), ('r', '\r'),
    ('t', '\t')]

/-- The ways to spell characters between quotation marks: as they are, by a letter, by a code, or
by a pair of surrogates. -/
inductive Spells : List Char → List Char → Prop
  | nil : Spells [] []
  | plain {c : Char} {w xs : List Char} (printed : ¬ c < ' ') (quote : c ≠ '"')
      (backslash : c ≠ '\\') : Spells w xs → Spells (c :: w) (c :: xs)
  | letter {l c : Char} {w xs : List Char} (short : (l, c) ∈ escapes) :
      Spells w xs → Spells ('\\' :: l :: w) (c :: xs)
  | code {ds w xs : List Char} {c : Char} (single : IsCode ds c.toNat) :
      Spells w xs → Spells ('\\' :: 'u' :: ds ++ w) (c :: xs)
  | pair {ds es w xs : List Char} {high low : Nat} {c : Char} (first : IsCode ds high)
      (second : IsCode es low) (upper : 0xd800 ≤ high ∧ high < 0xdc00)
      (lower : 0xdc00 ≤ low ∧ low ≤ 0xdfff)
      (both : c.toNat = 0x10000 + 0x400 * (high - 0xd800) + (low - 0xdc00)) :
      Spells w xs → Spells ('\\' :: 'u' :: ds ++ '\\' :: 'u' :: es ++ w) (c :: xs)

/-- What may stand between quotation marks, where codes need not name characters. -/
inductive IsText : List Char → Prop
  | nil : IsText []
  | plain {c : Char} {w : List Char} (printed : ¬ c < ' ') (quote : c ≠ '"')
      (backslash : c ≠ '\\') : IsText w → IsText (c :: w)
  | letter {l c : Char} {w : List Char} (short : (l, c) ∈ escapes) :
      IsText w → IsText ('\\' :: l :: w)
  | code {ds w : List Char} {n : Nat} (single : IsCode ds n) :
      IsText w → IsText ('\\' :: 'u' :: ds ++ w)

/-- The value is a text, in some spelling. -/
def WritesText (xs w : List Char) : Prop :=
  ∃ spelling, Spells spelling xs ∧ w = '"' :: spelling ++ ['"']

end Texts

section Numbers

structure IsDigits (cs : List Char) : Prop where
  nonempty : cs ≠ []
  digits : ∀ c ∈ cs, c.isDigit = true

/-- The whole part of a number, without leading zeros. -/
structure IsWholePart (cs : List Char) : Prop extends IsDigits cs where
  no_zeros : cs.head? = some '0' → cs = ['0']

inductive IsFraction : List Char → Prop
  | none : IsFraction []
  | decimals {ds : List Char} : IsDigits ds → IsFraction ('.' :: ds)

inductive IsExponent : List Char → Prop
  | none : IsExponent []
  | power {e : Char} {sign ds : List Char} (letter : e = 'e' ∨ e = 'E')
      (signed : sign = [] ∨ sign = ['+'] ∨ sign = ['-']) :
      IsDigits ds → IsExponent (e :: sign ++ ds)

inductive IsUnsigned : List Char → Prop
  | parts {whole fraction exponent : List Char} : IsWholePart whole → IsFraction fraction →
      IsExponent exponent → IsUnsigned (whole ++ fraction ++ exponent)

end Numbers

section Values

def Frame.opening : Frame → Char
  | list => '['
  | object => '\x7b'

mutual

inductive IsValue : List Char → Prop
  | null : IsValue "null".toList
  | yes : IsValue "true".toList
  | no : IsValue "false".toList
  | positive {w : List Char} : IsUnsigned w → IsValue w
  | negative {w : List Char} : IsUnsigned w → IsValue ('-' :: w)
  | text {w : List Char} : IsText w → IsValue ('"' :: w ++ ['"'])
  | empty (frame : Frame) {gap : List Char} : IsGap gap →
      IsValue (frame.opening :: gap ++ [frame.closing])
  | filled (frame : Frame) {ws : List Char} : IsParts frame ws →
      IsValue (frame.opening :: ws ++ [frame.closing])

/-- The elements of a list or the members of an object, with commas between them. -/
inductive IsParts : Frame → List Char → Prop
  | last {frame : Frame} {w : List Char} : IsPart frame w → IsParts frame w
  | more {frame : Frame} {w ws : List Char} : IsPart frame w → IsParts frame ws →
      IsParts frame (w ++ ',' :: ws)

/-- An element of a list or a member of an object, with white space around its parts. -/
inductive IsPart : Frame → List Char → Prop
  | element {before w after : List Char} : IsGap before → IsValue w → IsGap after →
      IsPart .list (before ++ w ++ after)
  | member {before key gap w : List Char} : IsGap before → IsText key → IsGap gap →
      IsPart .list w → IsPart .object (before ++ '"' :: key ++ '"' :: gap ++ ':' :: w)

end

end Values

section Records

/-- A member of an object as it is written, and the name that its key spells. -/
structure Member where
  before : List Char
  key : List Char
  name : List Char
  afterKey : List Char
  beforeValue : List Char
  value : List Char
  after : List Char

namespace Member

def text (m : Member) : List Char :=
  m.before ++ '"' :: m.key ++ '"' :: m.afterKey ++ ':' :: m.beforeValue ++ m.value ++ m.after

/-- The key spells the name, and only white space stands around the key and the value. -/
structure IsSpelled (m : Member) : Prop where
  before : IsGap m.before
  key : Spells m.key m.name
  afterKey : IsGap m.afterKey
  beforeValue : IsGap m.beforeValue
  after : IsGap m.after

end Member

inductive IsObject : List Member → List Char → Prop
  | empty {gap : List Char} : IsGap gap → IsObject [] ('\x7b' :: gap ++ ['\x7d'])
  | filled {members : List Member} : members ≠ [] →
      IsObject members ('\x7b' :: separate [','] (members.map Member.text) ++ ['\x7d'])

/-- What a record may have under one of its keys, and whether it may leave the key out. -/
structure Slot where
  key : String
  writes : List Char → Prop
  missing : Prop

/-- The value of a part that may be absent, or a null where it is. -/
def WritesOptional {α : Type} (writes : α → List Char → Prop) : Option α → List Char → Prop
  | none, w => w = "null".toList
  | some x, w => writes x w

/-- The slot of a part that may be absent, where its key may be missing too. -/
def Slot.optional {α : Type} (key : String) (writes : α → List Char → Prop) (x : Option α) : Slot :=
  ⟨key, WritesOptional writes x, x = none⟩

/-- The members fill the slots of a record: what stands under its keys is what the slots ask for,
no key of the record occurs twice, and only keys that may be missing are left out. Other keys may
have any values. -/
structure Fills (slots : List Slot) (members : List Member) : Prop where
  spelled : ∀ m ∈ members, m.IsSpelled
  known : ∀ m ∈ members, ∀ slot ∈ slots, m.name = slot.key.toList → slot.writes m.value
  unknown : ∀ m ∈ members, (∀ slot ∈ slots, m.name ≠ slot.key.toList) → IsValue m.value
  once : members.Pairwise fun m n => m.name = n.name → ∀ slot ∈ slots, m.name ≠ slot.key.toList
  left_out : ∀ slot ∈ slots, (∀ m ∈ members, m.name ≠ slot.key.toList) → slot.missing

def IsRecord (slots : List Slot) (w : List Char) : Prop :=
  ∃ members, Fills slots members ∧ IsObject members w

/-- A whole text that holds nothing but a record. -/
def HoldsRecord (slots : List Slot) (text : String) : Prop :=
  ∃ before w after, IsGap before ∧ IsRecord slots w ∧ IsGap after ∧
    text.toList = before ++ w ++ after

end Records

section Gaps

variable {gap cs rest : List Char}

theorem isGap_nil : IsGap [] := fun _ h => nomatch h

theorem skipSpace_gap (h : IsGap gap) (cs : List Char) : skipSpace (gap ++ cs) = skipSpace cs :=
  List.dropWhile_append_of_pos h

theorem skipSpace_cons {c : Char} (h : isSpace c = false) (cs : List Char) :
    skipSpace (c :: cs) = c :: cs :=
  List.dropWhile_cons_of_neg (by simp [h])

theorem skipSpace_of_gap (h : IsGap gap) : skipSpace gap = [] := by
  rw [← List.append_nil gap, skipSpace_gap h]
  rfl

theorem skipSpace_idem (cs : List Char) : skipSpace (skipSpace cs) = skipSpace cs := by
  induction cs with
  | nil => rfl
  | cons c cs ih =>
    cases space : isSpace c with
    | true =>
      have drop : skipSpace (c :: cs) = skipSpace cs := List.dropWhile_cons_of_pos space
      rw [drop, ih]
    | false => rw [skipSpace_cons space, skipSpace_cons space]

theorem Ends.of_gap (h : IsGap gap) (ends : Ends rest) : Ends (gap ++ rest) := by
  cases gap with
  | nil => exact ends
  | cons c more =>
    intro d hd
    obtain rfl := Option.some.inj hd
    exact .inl (h c List.mem_cons_self)

theorem ends_nil : Ends [] := fun _ h => nomatch h

theorem ends_comma (rest : List Char) : Ends (',' :: rest) := by
  intro c hc
  exact .inr (.inl (Option.some.inj hc).symm)

theorem Frame.ends_closing (frame : Frame) (rest : List Char) : Ends (frame.closing :: rest) := by
  intro c hc
  obtain rfl := Option.some.inj hc
  cases frame with
  | list => exact .inr (.inr (.inl rfl))
  | object => exact .inr (.inr (.inr rfl))

theorem Ends.not_numeric (h : Ends rest) {c : Char} (hc : c ∈ rest.head?) :
    c.isDigit = false ∧ c ≠ '.' ∧ c ≠ 'e' ∧ c ≠ 'E' := by
  rcases h c hc with space | rfl | rfl | rfl
  · have blank : c = ' ' ∨ c = '\n' ∨ c = '\t' ∨ c = '\r' := by
      simpa [isSpace, or_assoc] using space
    rcases blank with rfl | rfl | rfl | rfl <;> decide
  · decide
  · decide
  · decide

end Gaps

end PhotoCapture.Json
