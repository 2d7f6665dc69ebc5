namespace PhotoCapture.Markup

def isSpace (c : Char) : Bool := c = ' ' || c = '\t' || c = '\r' || c = '\n'

/-- A piece of markup. A tag's body is what stands between its angle brackets, without the
slash that closes it. -/
inductive Piece where
  | start (body : List Char)
  | empty (body : List Char)
  | close (body : List Char)
  | comment
  | characterData
  | instruction
  | documentType
  | plain
deriving DecidableEq

/-- The text before the first place where a mark stands, and the text after the mark. -/
def splitAt? (mark : List Char) : List Char → Option (List Char × List Char)
  | [] => if mark.isEmpty then some ([], []) else none
  | c :: cs =>
    if mark.isPrefixOf (c :: cs) then some ([], (c :: cs).drop mark.length)
    else (splitAt? mark cs).map fun (before, after) => (c :: before, after)

/-- The text before the first closing bracket outside quotes, and the text after it. The
argument `quote` is the quotation mark that is still open. -/
def splitTag? (quote : Option Char) : List Char → Option (List Char × List Char)
  | [] => none
  | c :: cs =>
    let go (quote : Option Char) :=
      (splitTag? quote cs).map fun (before, after) => (c :: before, after)
    match quote with
    | some q => go (if c = q then none else quote)
    | none =>
      if c = '>' then some ([], cs)
      else go (if c = '"' ∨ c = '\x27' then some c else none)

/-- The text before the first closing bracket that balances the brackets so far, and the text
after it. -/
def splitBalanced? (depth : Nat) : List Char → Option (List Char × List Char)
  | [] => none
  | c :: cs =>
    let go (depth : Nat) :=
      (splitBalanced? depth cs).map fun (before, after) => (c :: before, after)
    if c = '<' then go (depth + 1)
    else if c = '>' then
      match depth with
      | 0 => some ([], cs)
      | depth + 1 => go depth
    else go depth

inductive Cut where
  | finished
  | broken
  | piece (piece : Piece) (rest : List Char)
deriving DecidableEq

def Cut.ofSplit (piece : List Char → Piece) : Option (List Char × List Char) → Cut
  | none => broken
  | some (before, after) => .piece (piece before) after

/-- The piece after `<!`. A comment and character data end at their own marks. The name of a
document type may be in any case, and something must be declared. -/
def cutDeclaration (cs : List Char) : Cut :=
  if "--".toList.isPrefixOf cs then
    Cut.ofSplit (fun _ => .comment) (splitAt? "-->".toList (cs.drop 2))
  else if "[CDATA[".toList.isPrefixOf cs then
    Cut.ofSplit (fun _ => .characterData) (splitAt? "]]>".toList (cs.drop 7))
  else if "doctype".toList.isPrefixOf (cs.map Char.toLower) then
    match splitBalanced? 0 (cs.drop 7) with
    | some (body, rest) => if body.all isSpace then .broken else .piece .documentType rest
    | none => .broken
  else .broken

/-- The piece after `<?`. The mark that ends it may not share the question mark that starts
it. -/
def cutInstruction (cs : List Char) : Cut :=
  if ">".toList.isPrefixOf cs then .broken
  else Cut.ofSplit (fun _ => .instruction) (splitAt? "?>".toList cs)

/-- A tag's piece: a slash before the bracket closes the element at once. -/
def Piece.ofTag (body : List Char) : Piece :=
  if body.getLast? = some '/' then .empty body.dropLast else .start body

def cut : List Char → Cut
  | [] => .finished
  | '<' :: '!' :: cs => cutDeclaration cs
  | '<' :: '?' :: cs => cutInstruction cs
  | '<' :: '/' :: cs => Cut.ofSplit .close (splitTag? none cs)
  | '<' :: cs => Cut.ofSplit Piece.ofTag (splitTag? none cs)
  | cs => .piece .plain (cs.dropWhile (· ≠ '<'))

theorem splitAt?_length {mark : List Char} {cs before after : List Char}
    (h : splitAt? mark cs = some (before, after)) : after.length ≤ cs.length := by
  induction cs generalizing before with
  | nil => simp [splitAt?] at h; simp [h]
  | cons c cs ih =>
    simp only [splitAt?] at h
    split at h
    · simp at h; simp [← h.2]
    · obtain ⟨⟨b, a⟩, hs, he⟩ := Option.map_eq_some_iff.mp h
      simp only [Prod.mk.injEq] at he
      have := ih (he.2 ▸ hs)
      simp only [List.length_cons]
      omega

theorem splitTag?_length {quote : Option Char} {cs before after : List Char}
    (h : splitTag? quote cs = some (before, after)) : after.length < cs.length := by
  induction cs generalizing quote before with
  | nil => simp [splitTag?] at h
  | cons c cs ih =>
    have step {q : Option Char}
        (h : (splitTag? q cs).map (fun (b, a) => (c :: b, a)) = some (before, after)) :
        after.length < (c :: cs).length := by
      obtain ⟨⟨b, a⟩, hs, he⟩ := Option.map_eq_some_iff.mp h
      simp only [Prod.mk.injEq] at he
      have := ih (he.2 ▸ hs)
      simp only [List.length_cons]
      omega
    simp only [splitTag?] at h
    split at h
    · exact step h
    · split at h
      · simp at h; simp [h]
      · exact step h

theorem splitBalanced?_length {depth : Nat} {cs before after : List Char}
    (h : splitBalanced? depth cs = some (before, after)) : after.length < cs.length := by
  induction cs generalizing depth before with
  | nil => simp [splitBalanced?] at h
  | cons c cs ih =>
    have step {d : Nat}
        (h : (splitBalanced? d cs).map (fun (b, a) => (c :: b, a)) = some (before, after)) :
        after.length < (c :: cs).length := by
      obtain ⟨⟨b, a⟩, hs, he⟩ := Option.map_eq_some_iff.mp h
      simp only [Prod.mk.injEq] at he
      have := ih (he.2 ▸ hs)
      simp only [List.length_cons]
      omega
    simp only [splitBalanced?] at h
    split at h
    · exact step h
    · split at h
      · split at h
        · simp at h; simp [h]
        · exact step h
      · exact step h

theorem Cut.ofSplit_eq_piece {piece : List Char → Piece}
    {split : Option (List Char × List Char)} {p : Piece} {rest : List Char}
    (h : Cut.ofSplit piece split = .piece p rest) :
    ∃ before, split = some (before, rest) ∧ piece before = p := by
  cases split with
  | none => simp [Cut.ofSplit] at h
  | some s => simp [Cut.ofSplit] at h; exact ⟨s.1, by simp [← h.2], h.1⟩

theorem cutDeclaration_length {cs rest : List Char} {p : Piece}
    (h : cutDeclaration cs = .piece p rest) : rest.length ≤ cs.length := by
  unfold cutDeclaration at h
  split at h
  · obtain ⟨_, hs, _⟩ := Cut.ofSplit_eq_piece h
    have := splitAt?_length hs
    simp only [List.length_drop] at this
    omega
  split at h
  · obtain ⟨_, hs, _⟩ := Cut.ofSplit_eq_piece h
    have := splitAt?_length hs
    simp only [List.length_drop] at this
    omega
  split at h
  · split at h
    · rename_i hs
      split at h
      · simp at h
      · cases h
        have := splitBalanced?_length hs
        simp only [List.length_drop] at this
        omega
    · simp at h
  · simp at h

theorem cutInstruction_length {cs rest : List Char} {p : Piece}
    (h : cutInstruction cs = .piece p rest) : rest.length ≤ cs.length := by
  unfold cutInstruction at h
  split at h
  · simp at h
  · obtain ⟨_, hs, _⟩ := Cut.ofSplit_eq_piece h
    exact splitAt?_length hs

theorem cut_length {cs rest : List Char} {p : Piece} (h : cut cs = .piece p rest) :
    rest.length < cs.length := by
  unfold cut at h
  split at h
  · simp at h
  · have := cutDeclaration_length h; simp only [List.length_cons]; omega
  · have := cutInstruction_length h; simp only [List.length_cons]; omega
  · obtain ⟨_, hs, _⟩ := Cut.ofSplit_eq_piece h
    have := splitTag?_length hs
    simp only [List.length_cons]
    omega
  · obtain ⟨_, hs, _⟩ := Cut.ofSplit_eq_piece h
    have := splitTag?_length hs
    simp only [List.length_cons]
    omega
  · rename_i nonempty _ _ _ unmarked
    cases cs with
    | nil => exact absurd rfl nonempty
    | cons c cs =>
      have hc : c ≠ '<' := fun he => unmarked cs (by rw [he])
      simp only [Cut.piece.injEq] at h
      rw [← h.2, List.dropWhile_cons_of_pos (by simpa using hc), List.length_cons]
      have := (List.dropWhile_sublist (fun x => decide (x ≠ '<')) (l := cs)).length_le
      omega

end PhotoCapture.Markup
