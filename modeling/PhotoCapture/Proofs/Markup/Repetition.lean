import PhotoCapture.Markup.Attribute
import PhotoCapture.Proofs.Markup.Locality
import Mathlib.Data.List.DropRight

namespace PhotoCapture.Markup

/-- An attribute behind white space, with a key of letters and a quoted value without
references. -/
structure Written where
  gap : List Char
  key : List Char
  quote : Char
  value : List Char
  gap_ne_nil : gap ≠ [] := by decide
  gap_space : gap.all isSpace = true := by decide
  key_ne_nil : key ≠ [] := by decide
  key_letter : key.all Char.isAlpha = true := by decide
  quote_mark : quote = '"' ∨ quote = '\x27' := by decide
  quote_notMem : quote ∉ value := by decide
  reference_notMem : '&' ∉ value := by decide

namespace Written

variable {a : Written} {written : List Written} {seen : List (List Char)} {rest : List Char}

/-- What stands behind the equals sign. -/
def quoted (a : Written) : List Char := a.quote :: (a.value ++ [a.quote])

def text (a : Written) : List Char := a.gap ++ (a.key ++ '=' :: a.quoted)

def textOf (written : List Written) : List Char := written.flatMap text

def item (a : Written) : Attribute := .pair a.key a.value

/-- No equals sign stands behind white space in the value. -/
def Harmless (a : Written) : Prop := '=' ∉ a.value.dropWhile (!isSpace ·)

instance (a : Written) : Decidable a.Harmless :=
  inferInstanceAs (Decidable ('=' ∉ a.value.dropWhile _))

/-- The attributes whose keys are neither among those seen nor written before. -/
def firstsAfter (seen : List (List Char)) : List Written → List Written
  | [] => []
  | a :: written =>
    if seen.contains a.key then firstsAfter seen written
    else a :: firstsAfter (a.key :: seen) written

/-- The attributes whose keys are among those seen or written before. -/
def repeatsAfter (seen : List (List Char)) : List Written → List Written
  | [] => []
  | a :: written =>
    if seen.contains a.key then a :: repeatsAfter seen written
    else repeatsAfter (a.key :: seen) written

def firsts (written : List Written) : List Written := firstsAfter [] written

def repeats (written : List Written) : List Written := repeatsAfter [] written

/-- The keys that are seen once the attributes are read, the latest first. -/
def keysAfter (seen : List (List Char)) (written : List Written) : List (List Char) :=
  (firstsAfter seen written).reverse.map Written.key ++ seen

section Keys

theorem firstsAfter_repeated (repeated : a.key ∈ seen) (written : List Written) :
    firstsAfter seen (a :: written) = firstsAfter seen written :=
  if_pos (List.contains_iff_mem.mpr repeated)

theorem firstsAfter_new (new : a.key ∉ seen) (written : List Written) :
    firstsAfter seen (a :: written) = a :: firstsAfter (a.key :: seen) written :=
  if_neg (mt List.contains_iff_mem.mp new)

theorem repeatsAfter_repeated (repeated : a.key ∈ seen) (written : List Written) :
    repeatsAfter seen (a :: written) = a :: repeatsAfter seen written :=
  if_pos (List.contains_iff_mem.mpr repeated)

theorem repeatsAfter_new (new : a.key ∉ seen) (written : List Written) :
    repeatsAfter seen (a :: written) = repeatsAfter (a.key :: seen) written :=
  if_neg (mt List.contains_iff_mem.mp new)

theorem keysAfter_repeated (repeated : a.key ∈ seen) (written : List Written) :
    keysAfter seen (a :: written) = keysAfter seen written := by
  rw [keysAfter, firstsAfter_repeated repeated, keysAfter]

theorem keysAfter_new (new : a.key ∉ seen) (written : List Written) :
    keysAfter seen (a :: written) = keysAfter (a.key :: seen) written := by
  simp [keysAfter, firstsAfter_new new]

theorem mem_keysAfter {key : List Char} : key ∈ keysAfter seen written ↔
    key ∈ seen ∨ key ∈ written.map Written.key := by
  induction written generalizing seen with
  | nil => simp [keysAfter, firstsAfter]
  | cons a written ih =>
    rw [List.map_cons, List.mem_cons]
    by_cases repeated : a.key ∈ seen
    · rw [keysAfter_repeated repeated, ih]
      refine or_congr_right' fun new => (or_iff_right ?_).symm
      rintro rfl
      exact new repeated
    · rw [keysAfter_new repeated, ih, List.mem_cons, or_assoc, or_left_comm]

theorem firstsAfter_firstsAfter (seen : List (List Char)) (written : List Written) :
    firstsAfter seen (firstsAfter seen written) = firstsAfter seen written := by
  induction written generalizing seen with
  | nil => rfl
  | cons a written ih =>
    by_cases repeated : a.key ∈ seen
    · rw [firstsAfter_repeated repeated, ih]
    · rw [firstsAfter_new repeated, firstsAfter_new repeated, ih]

theorem repeatsAfter_firstsAfter (seen : List (List Char)) (written : List Written) :
    repeatsAfter seen (firstsAfter seen written) = [] := by
  induction written generalizing seen with
  | nil => rfl
  | cons a written ih =>
    by_cases repeated : a.key ∈ seen
    · rw [firstsAfter_repeated repeated, ih]
    · rw [firstsAfter_new repeated, repeatsAfter_new repeated, ih]

end Keys

section Reading

theorem ne_of_isAlpha {c d : Char} (h : c.isAlpha = true) (other : d.isAlpha = false) : c ≠ d := by
  rintro rfl
  rw [h] at other
  contradiction

theorem isSpace_of_isAlpha {c : Char} (h : c.isAlpha = true) : isSpace c = false := by
  simp [isSpace, ne_of_isAlpha h (d := ' ') rfl, ne_of_isAlpha h (d := '\t') rfl,
    ne_of_isAlpha h (d := '\r') rfl, ne_of_isAlpha h (d := '\n') rfl]

theorem isSpace_of_mem_gap (a : Written) : ∀ c ∈ a.gap, isSpace c = true :=
  List.all_eq_true.mp a.gap_space

theorem isAlpha_of_mem_key (a : Written) : ∀ c ∈ a.key, c.isAlpha = true :=
  List.all_eq_true.mp a.key_letter

theorem isSpace_quote (a : Written) : isSpace a.quote = false := by
  rcases a.quote_mark with h | h <;> rw [h] <;> rfl

theorem takeValue_quoted (a : Written) (key rest : List Char) :
    takeValue key (a.quoted ++ rest) = (.pair key a.value, rest) := by
  have inside : ∀ c ∈ a.value, decide (c ≠ a.quote) = true := fun c hc =>
    decide_eq_true fun same => a.quote_notMem (same ▸ hc)
  have start : (a.quoted ++ rest).dropWhile isSpace =
      a.quote :: (a.value ++ ([a.quote] ++ rest)) := by
    rw [quoted, List.cons_append, List.dropWhile_cons_of_neg (by simp [isSpace_quote]),
      List.append_assoc]
  have ended : (a.value ++ ([a.quote] ++ rest)).dropWhile (· ≠ a.quote) = a.quote :: rest := by
    rw [List.dropWhile_append_of_pos inside]
    exact List.dropWhile_cons_of_neg (by simp)
  have taken : (a.value ++ ([a.quote] ++ rest)).takeWhile (· ≠ a.quote) = a.value := by
    rw [List.takeWhile_append_of_pos inside]
    simp
  rw [takeValue, start]
  dsimp only
  rw [if_pos a.quote_mark, ended, taken]

theorem exists_start (a : Written) (rest : List Char) :
    ∃ c more, a.key = c :: more ∧ (∀ d ∈ c :: more, d.isAlpha = true) ∧
      (a.text ++ rest).dropWhile isSpace = c :: (more ++ '=' :: (a.quoted ++ rest)) := by
  obtain ⟨c, more, key⟩ := List.exists_cons_of_ne_nil a.key_ne_nil
  have letter : ∀ d ∈ c :: more, d.isAlpha = true := key ▸ a.isAlpha_of_mem_key
  refine ⟨c, more, key, letter, ?_⟩
  have solid : ¬isSpace c = true := by
    simp [isSpace_of_isAlpha (letter c List.mem_cons_self)]
  rw [text, List.append_assoc, List.dropWhile_append_of_pos a.isSpace_of_mem_gap, key,
    List.append_assoc, List.cons_append, List.dropWhile_cons_of_neg solid]
  rfl

/-- An attribute of a new key is read as it is written, and one that repeats a key is an error. -/
theorem nextAttribute?_text (seen : List (List Char)) (a : Written) (rest : List Char) :
    nextAttribute? seen (a.text ++ rest) =
      if a.key ∈ seen then some (.malformed, seen, skipValue (a.quoted ++ rest))
      else some (a.item, a.key :: seen, rest) := by
  obtain ⟨c, more, key, letter, start⟩ := a.exists_start rest
  have inside : ∀ d ∈ more, (decide (d ≠ '=') && !isSpace d) = true := fun d hd => by
    have alpha := letter d (List.mem_cons_of_mem c hd)
    simp [isSpace_of_isAlpha alpha, ne_of_isAlpha alpha (d := '=') rfl]
  have taken : (more ++ '=' :: (a.quoted ++ rest)).takeWhile
      (fun d => decide (d ≠ '=') && !isSpace d) = more := by
    rw [List.takeWhile_append_of_pos inside]
    simp
  have ended : ((more ++ '=' :: (a.quoted ++ rest)).dropWhile
      (fun d => decide (d ≠ '=') && !isSpace d)).dropWhile isSpace =
      '=' :: (a.quoted ++ rest) := by
    rw [List.dropWhile_append_of_pos inside]
    rfl
  rw [nextAttribute?, start]
  dsimp only
  rw [ended, taken, ← key]
  simp only [takeValue_quoted, item]

theorem attributesAfter_of_none {cs : List Char} (h : nextAttribute? seen cs = none) :
    attributesAfter seen cs = [] := by
  rw [attributesAfter]
  split
  next => rfl
  next some => rw [h] at some; contradiction

theorem attributesAfter_of_next {cs : List Char} {item : Attribute} {keys : List (List Char)}
    (h : nextAttribute? seen cs = some (item, keys, rest)) :
    attributesAfter seen cs = item :: attributesAfter keys rest := by
  rw [attributesAfter]
  split
  next none => rw [h] at none; contradiction
  next item' keys' rest' some =>
    obtain ⟨rfl, rfl, rfl⟩ : item = item' ∧ keys = keys' ∧ rest = rest' := by
      simpa using h.symm.trans some
    rfl

theorem attributesAfter_new (new : a.key ∉ seen) (rest : List Char) :
    attributesAfter seen (a.text ++ rest) = a.item :: attributesAfter (a.key :: seen) rest :=
  attributesAfter_of_next (by rw [nextAttribute?_text, if_neg new])

theorem attributesAfter_repeated (repeated : a.key ∈ seen) (rest : List Char) :
    attributesAfter seen (a.text ++ rest) =
      .malformed :: attributesAfter seen (skipValue (a.quoted ++ rest)) :=
  attributesAfter_of_next (by rw [nextAttribute?_text, if_pos repeated])

theorem attributesAfter_dropWhile (seen : List (List Char)) (cs : List Char) :
    attributesAfter seen (cs.dropWhile isSpace) = attributesAfter seen cs := by
  have next : nextAttribute? seen (cs.dropWhile isSpace) = nextAttribute? seen cs := by
    rw [nextAttribute?, List.dropWhile_idempotent, nextAttribute?]
  cases h : nextAttribute? seen cs with
  | none => rw [attributesAfter_of_none h, attributesAfter_of_none (next.trans h)]
  | some part => rw [attributesAfter_of_next h, attributesAfter_of_next (next.trans h)]

/-- The text is empty or starts with white space, and no equals sign follows the white space. -/
structure Follows (cs : List Char) : Prop where
  blank : ∀ c ∈ cs.head?, isSpace c = true
  unequal : ∀ c ∈ (cs.dropWhile isSpace).head?, c ≠ '='

theorem follows_nil : Follows [] := ⟨by simp, by simp⟩

theorem follows_text (a : Written) (rest : List Char) : Follows (a.text ++ rest) where
  blank c hc := by
    obtain ⟨d, more, gap⟩ := List.exists_cons_of_ne_nil a.gap_ne_nil
    obtain rfl : d = c := by simpa [text, gap] using hc
    exact a.isSpace_of_mem_gap d (gap ▸ List.mem_cons_self)
  unequal c hc := by
    obtain ⟨d, more, -, letter, start⟩ := a.exists_start rest
    obtain rfl : d = c := by simpa [start] using hc
    exact ne_of_isAlpha (letter d List.mem_cons_self) rfl

theorem textOf_cons_append (a : Written) (written : List Written) (rest : List Char) :
    textOf (a :: written) ++ rest = a.text ++ (textOf written ++ rest) := by
  rw [textOf, List.flatMap_cons, List.append_assoc, textOf]

theorem follows_textOf_append (written : List Written) (follows : Follows rest) :
    Follows (textOf written ++ rest) := by
  cases written with
  | nil => exact follows
  | cons a written =>
    rw [textOf_cons_append]
    exact follows_text a _

theorem Follows.dropWhile_eq (follows : Follows rest) : rest.dropWhile (!isSpace ·) = rest := by
  cases rest with
  | nil => rfl
  | cons c rest => exact List.dropWhile_cons_of_neg (by simp [follows.blank c rfl])

theorem skipValue_quoted (a : Written) (follows : Follows rest) :
    skipValue (a.quoted ++ rest) = skipValue a.quoted ++ rest := by
  rw [skipValue, List.dropWhile_append, follows.dropWhile_eq, skipValue]
  split
  next all => rw [List.isEmpty_iff.mp all, List.nil_append]
  next => rfl

theorem Harmless.notMem_skipValue (harmless : a.Harmless) : '=' ∉ skipValue a.quoted := by
  have closing : '=' ∉ [a.quote].dropWhile (!isSpace ·) := by
    simp [isSpace_quote]
  rw [skipValue, quoted, List.dropWhile_cons_of_pos (by simp [isSpace_quote]),
    List.dropWhile_append]
  split
  next => exact closing
  next =>
    rw [List.mem_append, not_or]
    refine ⟨harmless, ?_⟩
    rcases a.quote_mark with h | h <;> simp [h]

def readable (items : List Attribute) : List Attribute := items.filter (· ≠ .malformed)

theorem dropWhile_word {more : List Char} (unequal : '=' ∉ more) (follows : Follows rest) :
    (more ++ rest).dropWhile (fun c => decide (c ≠ '=') && !isSpace c) =
      more.dropWhile (!isSpace ·) ++ rest := by
  induction more with
  | nil =>
    cases rest with
    | nil => rfl
    | cons c rest => simp [follows.blank c rfl]
  | cons c more ih =>
    obtain ⟨other, others⟩ : '=' ≠ c ∧ '=' ∉ more := by simpa using unequal
    cases space : isSpace c
    · simpa [space, other.symm] using ih others
    · simp [space]

theorem nextAttribute?_unequal (seen : List (List Char)) {c : Char} {more : List Char}
    (solid : isSpace c = false) (unequal : '=' ∉ more) (follows : Follows rest) :
    nextAttribute? seen (c :: more ++ rest) =
      some (.malformed, seen, (more.dropWhile (!isSpace ·) ++ rest).dropWhile isSpace) := by
  have sign : ∀ d ∈ ((more.dropWhile (!isSpace ·) ++ rest).dropWhile isSpace).head?, d ≠ '=' := by
    rw [List.dropWhile_append]
    split
    next => exact follows.unequal
    next some =>
      obtain ⟨d, others, start⟩ := List.exists_cons_of_ne_nil (mt List.isEmpty_iff.mpr some)
      have within : d ∈ more := (List.dropWhile_sublist _).subset
        ((List.dropWhile_sublist _).subset (start ▸ List.mem_cons_self))
      rintro d' hd rfl
      obtain rfl : d = '=' := by simpa [start] using hd
      exact unequal within
  rw [nextAttribute?, List.cons_append, List.dropWhile_cons_of_neg (by simp [solid])]
  dsimp only
  rw [dropWhile_word unequal follows]
  split
  next after equal => exact absurd rfl (sign '=' (by simp [equal]))
  next => rfl

/-- Text without an equals sign is read as errors, and what follows it as if it stood alone. -/
theorem readable_attributesAfter_unequal (seen : List (List Char)) (follows : Follows rest)
    (cs : List Char) (unequal : '=' ∉ cs) :
    readable (attributesAfter seen (cs ++ rest)) = readable (attributesAfter seen rest) := by
  rw [← attributesAfter_dropWhile, List.dropWhile_append]
  split
  next => rw [attributesAfter_dropWhile]
  next some =>
    obtain ⟨c, more, start⟩ := List.exists_cons_of_ne_nil (mt List.isEmpty_iff.mpr some)
    have solid : isSpace c = false := by
      simpa [start] using List.head?_dropWhile_not isSpace cs
    have within : '=' ∉ more := fun h => unequal
      ((List.dropWhile_sublist _).subset (start ▸ List.mem_cons_of_mem c h))
    have shorter : (more.dropWhile (!isSpace ·)).length < cs.length := by
      have space := dropWhile_length isSpace cs
      have word := dropWhile_length (!isSpace ·) more
      rw [start, List.length_cons] at space
      omega
    -- One word is one error, and what is left is shorter.
    rw [start, attributesAfter_of_next (nextAttribute?_unequal seen solid within follows),
      attributesAfter_dropWhile]
    exact readable_attributesAfter_unequal seen follows _
      fun h => within ((List.dropWhile_sublist _).subset h)
termination_by cs.length

/-- Whatever follows, the attributes are read without their repetitions, as long as those are
harmless. -/
theorem readable_attributesAfter (seen : List (List Char)) (written : List Written)
    (harmless : ∀ a ∈ repeatsAfter seen written, a.Harmless) (follows : Follows rest) :
    readable (attributesAfter seen (textOf written ++ rest)) =
      (firstsAfter seen written).map item ++
        readable (attributesAfter (keysAfter seen written) rest) := by
  induction written generalizing seen with
  | nil => simp [textOf, firstsAfter, keysAfter]
  | cons a written ih =>
    have later := follows_textOf_append written follows
    rw [textOf_cons_append]
    by_cases repeated : a.key ∈ seen
    · rw [repeatsAfter_repeated repeated] at harmless
      obtain ⟨own, others⟩ := List.forall_mem_cons.mp harmless
      rw [attributesAfter_repeated repeated, skipValue_quoted a later,
        firstsAfter_repeated repeated, keysAfter_repeated repeated]
      exact (readable_attributesAfter_unequal seen later _ own.notMem_skipValue).trans
        (ih seen others)
    · rw [repeatsAfter_new repeated] at harmless
      rw [attributesAfter_new repeated, firstsAfter_new repeated, keysAfter_new repeated]
      exact congrArg (a.item :: ·) (ih (a.key :: seen) harmless)

end Reading

section Split

variable {front tail body : List Char}

theorem splitTag?_plain (plain : ∀ c ∈ front, c ≠ '>' ∧ c ≠ '"' ∧ c ≠ '\x27')
    (h : splitTag? none rest = some (body, tail)) :
    splitTag? none (front ++ rest) = some (front ++ body, tail) := by
  induction front with
  | nil => exact h
  | cons c front ih =>
    obtain ⟨⟨bracket, double, single⟩, others⟩ := List.forall_mem_cons.mp plain
    simp [splitTag?, bracket, double, single, ih others]

theorem splitTag?_value {quote : Char} (closes : quote ∉ front)
    (h : splitTag? none rest = some (body, tail)) :
    splitTag? (some quote) (front ++ quote :: rest) = some (front ++ quote :: body, tail) := by
  induction front with
  | nil => simp [splitTag?, h]
  | cons c front ih =>
    obtain ⟨other, others⟩ : quote ≠ c ∧ quote ∉ front := by simpa using closes
    simp [splitTag?, other.symm, ih others]

theorem plain_of_isAlpha {c : Char} (h : c.isAlpha = true) : c ≠ '>' ∧ c ≠ '"' ∧ c ≠ '\x27' :=
  ⟨ne_of_isAlpha h rfl, ne_of_isAlpha h rfl, ne_of_isAlpha h rfl⟩

theorem plain_of_isSpace {c : Char} (h : isSpace c = true) : c ≠ '>' ∧ c ≠ '"' ∧ c ≠ '\x27' := by
  refine ⟨?_, ?_, ?_⟩ <;> rintro rfl <;> contradiction

/-- Brackets and quotes in the value of an attribute do not end the tag. -/
theorem splitTag?_text (a : Written) (h : splitTag? none rest = some (body, tail)) :
    splitTag? none (a.text ++ rest) = some (a.text ++ body, tail) := by
  have value : splitTag? none (a.quoted ++ rest) = some (a.quoted ++ body, tail) := by
    have inner := splitTag?_value a.quote_notMem h
    have bracket : a.quote ≠ '>' := by
      rcases a.quote_mark with same | same <;> rw [same] <;> decide
    rw [quoted, List.cons_append, List.append_assoc, splitTag?]
    simp [bracket, a.quote_mark, inner]
  have sign : splitTag? none ('=' :: (a.quoted ++ rest)) = some ('=' :: (a.quoted ++ body), tail) :=
    splitTag?_plain (List.forall_mem_singleton.mpr (by decide)) value
  have key := splitTag?_plain (fun c hc => plain_of_isAlpha (a.isAlpha_of_mem_key c hc)) sign
  have gap := splitTag?_plain (fun c hc => plain_of_isSpace (a.isSpace_of_mem_gap c hc)) key
  simpa [text] using gap

theorem splitTag?_textOf (written : List Written) (h : splitTag? none rest = some (body, tail)) :
    splitTag? none (textOf written ++ rest) = some (textOf written ++ body, tail) := by
  induction written with
  | nil => exact h
  | cons a written ih =>
    rw [textOf_cons_append, textOf_cons_append]
    exact splitTag?_text a ih

end Split

def tag (name : List Char) (written : List Written) : List Char :=
  '<' :: (name ++ (textOf written ++ ['/', '>']))

section Tag

variable {name : List Char}

theorem cut_letter {c : Char} (letter : c.isAlpha = true) (cs : List Char) :
    cut ('<' :: c :: cs) = Cut.ofSplit Piece.ofTag (splitTag? none (c :: cs)) := by
  simp [cut, ne_of_isAlpha letter (d := '!') rfl, ne_of_isAlpha letter (d := '?') rfl,
    ne_of_isAlpha letter (d := '/') rfl]

theorem cut_tag (nonempty : name ≠ []) (letters : name.all Char.isAlpha = true)
    (written : List Written) (q : List Char) :
    cut (tag name written ++ q) = .piece (.empty (name ++ textOf written)) q := by
  have alpha : ∀ c ∈ name, c.isAlpha = true := List.all_eq_true.mp letters
  have ended : splitTag? none ('/' :: '>' :: q) = some (['/'], q) := by simp [splitTag?]
  have split := splitTag?_plain (fun c hc => plain_of_isAlpha (alpha c hc))
    (splitTag?_textOf written ended)
  have text : tag name written ++ q = '<' :: (name ++ (textOf written ++ '/' :: '>' :: q)) := by
    simp [tag]
  have start : cut ('<' :: (name ++ (textOf written ++ '/' :: '>' :: q))) =
      Cut.ofSplit Piece.ofTag (splitTag? none (name ++ (textOf written ++ '/' :: '>' :: q))) := by
    obtain ⟨c, more, rfl⟩ := List.exists_cons_of_ne_nil nonempty
    exact cut_letter (alpha c List.mem_cons_self) _
  rw [text, start, split, Cut.ofSplit, ← List.append_assoc]
  simp [Piece.ofTag]

theorem ofBody_tag (letters : name.all Char.isAlpha = true) (written : List Written) :
    Element.ofBody (name ++ textOf written) = ⟨name, textOf written⟩ := by
  have solid : ∀ c ∈ name, (!isSpace c) = true := fun c hc => by
    simp [isSpace_of_isAlpha (List.all_eq_true.mp letters c hc)]
  have follows : Follows (textOf written) := by
    simpa using follows_textOf_append written follows_nil
  have stops : (textOf written).takeWhile (!isSpace ·) = [] := by
    cases h : textOf written with
    | nil => rfl
    | cons c cs => simp [follows.blank c (by simp [h])]
  rw [Element.ofBody, List.takeWhile_append_of_pos solid, List.dropWhile_append_of_pos solid,
    stops, follows.dropWhile_eq, List.append_nil]

theorem elements_tag (nonempty : name ≠ []) (letters : name.all Char.isAlpha = true)
    (written : List Written) (unclosed : List (List Char)) (q : List Char) :
    (Reader.mk unclosed (tag name written ++ q)).elements =
      ⟨name, textOf written⟩ :: (Reader.mk unclosed q).elements := by
  have event : (Reader.mk unclosed (tag name written ++ q)).next =
      .event (some ⟨name, textOf written⟩) ⟨unclosed, q⟩ := by
    rw [Reader.next, cut_tag nonempty letters]
    simp only [ofBody_tag letters]
  rw [Reader.elements_event event]
  rfl

end Tag

end Written

end PhotoCapture.Markup
