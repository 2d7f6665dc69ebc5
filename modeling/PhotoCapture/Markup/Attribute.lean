import PhotoCapture.Markup.Piece

namespace PhotoCapture.Markup

/-- One item of an attribute list. A malformed attribute is an item too, and reading goes on behind
it: after a key without a value at the next character that is not white space, after a value without
quotes at the next white space. -/
inductive Attribute where
  | malformed
  | pair (key value : List Char)
deriving DecidableEq

/-- The text where reading goes on after the equals sign of a repeated key. Quotes have no meaning
there, so white space in the value ends it. -/
def skipValue (cs : List Char) : List Char := cs.dropWhile (!isSpace ·)

def takeValue (key cs : List Char) : Attribute × List Char :=
  match cs.dropWhile isSpace with
  | [] => (.malformed, [])
  | c :: rest =>
    if c = '"' ∨ c = '\x27' then
      match rest.dropWhile (· ≠ c) with
      | [] => (.malformed, [])
      | _ :: after => (.pair key (rest.takeWhile (· ≠ c)), after)
    else (.malformed, (c :: rest).dropWhile (!isSpace ·))

/-- The next item of an attribute list, the keys seen with it, and the rest of the list. -/
def nextAttribute? (seen : List (List Char)) (cs : List Char) :
    Option (Attribute × List (List Char) × List Char) :=
  match cs.dropWhile isSpace with
  | [] => none
  | c :: more =>
    let key := c :: more.takeWhile fun c => c ≠ '=' && !isSpace c
    match (more.dropWhile fun c => c ≠ '=' && !isSpace c).dropWhile isSpace with
    | '=' :: after =>
      if key ∈ seen then some (.malformed, seen, skipValue after)
      else
        let (item, rest) := takeValue key after
        some (item, key :: seen, rest)
    | rest => some (.malformed, seen, rest)

theorem dropWhile_length (p : Char → Bool) (cs : List Char) :
    (cs.dropWhile p).length ≤ cs.length := (List.dropWhile_sublist p).length_le

theorem skipValue_length (cs : List Char) : (skipValue cs).length ≤ cs.length :=
  dropWhile_length (!isSpace ·) cs

theorem takeValue_length (key cs : List Char) : (takeValue key cs).2.length ≤ cs.length := by
  have space := dropWhile_length isSpace cs
  unfold takeValue
  split
  · simp
  · rename_i c rest hc
    rw [hc] at space
    split
    · have := dropWhile_length (· ≠ c) rest
      split
      · simp
      · rename_i ha
        rw [ha] at this
        simp only [List.length_cons] at space this ⊢
        omega
    · exact Nat.le_trans (dropWhile_length (!isSpace ·) (c :: rest)) space

theorem nextAttribute?_length {seen keys : List (List Char)} {cs rest : List Char}
    {item : Attribute} (h : nextAttribute? seen cs = some (item, keys, rest)) :
    rest.length < cs.length := by
  have space := dropWhile_length isSpace cs
  unfold nextAttribute? at h
  split at h
  · simp at h
  · rename_i c more hc
    rw [hc] at space
    have hkey := dropWhile_length (fun c => c ≠ '=' && !isSpace c) more
    have hgap := dropWhile_length isSpace (more.dropWhile fun c => c ≠ '=' && !isSpace c)
    simp only [List.length_cons] at space
    dsimp only at h
    split at h
    · rename_i after ha
      rw [ha] at hgap
      simp only [List.length_cons] at hgap
      split at h
      · simp only [Option.some.injEq, Prod.mk.injEq] at h
        have := skipValue_length after
        rw [← h.2.2]
        omega
      · simp only [Option.some.injEq, Prod.mk.injEq] at h
        have := takeValue_length
          (c :: more.takeWhile fun c => c ≠ '=' && !isSpace c) after
        rw [← h.2.2]
        omega
    · simp only [Option.some.injEq, Prod.mk.injEq] at h
      rw [← h.2.2]
      omega

def attributesAfter (seen : List (List Char)) (cs : List Char) : List Attribute :=
  match h : nextAttribute? seen cs with
  | none => []
  | some (item, keys, rest) =>
    have := nextAttribute?_length h
    item :: attributesAfter keys rest
termination_by cs.length

def attributes (cs : List Char) : List Attribute := attributesAfter [] cs

end PhotoCapture.Markup
