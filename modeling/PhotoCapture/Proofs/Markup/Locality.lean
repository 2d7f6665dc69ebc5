import PhotoCapture.Markup.Reader

namespace PhotoCapture.Markup

variable {mark cs before after rest : List Char} {p : Piece}

theorem isPrefixOf_append (h : mark.isPrefixOf cs = true) (q : List Char) :
    mark.isPrefixOf (cs ++ q) = true := by
  rw [List.isPrefixOf_iff_prefix] at h ⊢
  exact h.trans (List.prefix_append cs q)

theorem isPrefixOf_append_of_le (h : mark.length ≤ cs.length) (q : List Char) :
    mark.isPrefixOf (cs ++ q) = mark.isPrefixOf cs := by
  rw [Bool.eq_iff_iff, List.isPrefixOf_iff_prefix, List.isPrefixOf_iff_prefix]
  refine ⟨fun hq => List.prefix_of_prefix_length_le hq (List.prefix_append cs q) h, fun hp => ?_⟩
  exact hp.trans (List.prefix_append cs q)

theorem map_cons_append {split split' : Option (List Char × List Char)} {c : Char} {q : List Char}
    (h : split.map (fun (before, after) => (c :: before, after)) = some (before, after))
    (further : ∀ b, split = some (b, after) → split' = some (b, after ++ q)) :
    split'.map (fun (before, after) => (c :: before, after)) = some (before, after ++ q) := by
  obtain ⟨⟨b, a⟩, hs, he⟩ := Option.map_eq_some_iff.mp h
  obtain ⟨rfl, rfl⟩ := Prod.mk.inj he
  rw [further b hs]
  rfl

theorem length_le_of_splitAt? (h : splitAt? mark cs = some (before, after)) :
    mark.length ≤ cs.length := by
  induction cs generalizing before with
  | nil =>
    cases mark with
    | nil => simp
    | cons m mark => simp [splitAt?] at h
  | cons c cs ih =>
    simp only [splitAt?] at h
    split at h
    next found => exact (List.isPrefixOf_iff_prefix.mp found).length_le
    next =>
      obtain ⟨⟨b, a⟩, hs, he⟩ := Option.map_eq_some_iff.mp h
      obtain ⟨-, rfl⟩ := Prod.mk.inj he
      exact Nat.le_succ_of_le (ih hs)

theorem splitAt?_append (h : splitAt? mark cs = some (before, after)) (q : List Char) :
    splitAt? mark (cs ++ q) = some (before, after ++ q) := by
  induction cs generalizing before with
  | nil =>
    cases mark with
    | nil =>
      obtain ⟨rfl, rfl⟩ : [] = before ∧ [] = after := by simpa [splitAt?] using h
      cases q <;> simp [splitAt?]
    | cons m mark => simp [splitAt?] at h
  | cons c cs ih =>
    -- The mark stands further on, so the text is long enough to tell that it does not stand here.
    have long := length_le_of_splitAt? h
    simp only [splitAt?, List.cons_append] at h ⊢
    rw [← List.cons_append, isPrefixOf_append_of_le long]
    split at h
    next found =>
      obtain ⟨rfl, rfl⟩ := Prod.mk.inj (Option.some.inj h)
      rw [if_pos found, List.drop_append_of_le_length long]
    next missing =>
      rw [if_neg missing]
      exact map_cons_append h fun b hs => ih hs

theorem splitTag?_append {quote : Option Char} (h : splitTag? quote cs = some (before, after))
    (q : List Char) : splitTag? quote (cs ++ q) = some (before, after ++ q) := by
  induction cs generalizing quote before with
  | nil => simp [splitTag?] at h
  | cons c cs ih =>
    simp only [splitTag?, List.cons_append] at h ⊢
    cases quote with
    | some mark => exact map_cons_append h fun b hs => ih hs
    | none =>
      dsimp only at h ⊢
      split at h
      next closed =>
        obtain ⟨rfl, rfl⟩ := Prod.mk.inj (Option.some.inj h)
        rw [if_pos closed]
      next going =>
        rw [if_neg going]
        exact map_cons_append h fun b hs => ih hs

theorem splitBalanced?_append {depth : Nat} (h : splitBalanced? depth cs = some (before, after))
    (q : List Char) : splitBalanced? depth (cs ++ q) = some (before, after ++ q) := by
  induction cs generalizing depth before with
  | nil => simp [splitBalanced?] at h
  | cons c cs ih =>
    simp only [splitBalanced?, List.cons_append] at h ⊢
    split at h
    next opens =>
      rw [if_pos opens]
      exact map_cons_append h fun b hs => ih hs
    next other =>
      rw [if_neg other]
      split at h
      next closes =>
        rw [if_pos closes]
        cases depth with
        | zero =>
          obtain ⟨rfl, rfl⟩ := Prod.mk.inj (Option.some.inj h)
          rfl
        | succ depth => exact map_cons_append h fun b hs => ih hs
      next plain =>
        rw [if_neg plain]
        exact map_cons_append h fun b hs => ih hs

theorem Cut.ofSplit_append {piece : List Char → Piece} {q : List Char}
    {split split' : Option (List Char × List Char)}
    (same : ∀ before after, split = some (before, after) → split' = some (before, after ++ q))
    (h : Cut.ofSplit piece split = .piece p rest) :
    Cut.ofSplit piece split' = .piece p (rest ++ q) := by
  obtain ⟨before, hs, hp⟩ := Cut.ofSplit_eq_piece h
  rw [same before rest hs, Cut.ofSplit, hp]

theorem cutDeclaration_append (h : cutDeclaration cs = .piece p rest) (q : List Char) :
    cutDeclaration (cs ++ q) = .piece p (rest ++ q) := by
  unfold cutDeclaration at h ⊢
  split at h
  next comment =>
    have long : 2 ≤ cs.length := (List.isPrefixOf_iff_prefix.mp comment).length_le
    rw [if_pos (isPrefixOf_append comment q), List.drop_append_of_le_length long]
    exact Cut.ofSplit_append (fun _ _ hs => splitAt?_append hs q) h
  next notComment =>
  split at h
  next data =>
    have long : 7 ≤ cs.length := (List.isPrefixOf_iff_prefix.mp data).length_le
    have short : "--".toList.length ≤ cs.length := Nat.le_trans (by decide) long
    rw [isPrefixOf_append_of_le short, if_neg notComment, if_pos (isPrefixOf_append data q),
      List.drop_append_of_le_length long]
    exact Cut.ofSplit_append (fun _ _ hs => splitAt?_append hs q) h
  next notData =>
  split at h
  next declared =>
    have long : 7 ≤ cs.length := by
      simpa using (List.isPrefixOf_iff_prefix.mp declared).length_le
    have short : "--".toList.length ≤ cs.length := Nat.le_trans (by decide) long
    have enough : "[CDATA[".toList.length ≤ cs.length := long
    rw [isPrefixOf_append_of_le short, if_neg notComment, isPrefixOf_append_of_le enough,
      if_neg notData, List.map_append, if_pos (isPrefixOf_append declared _),
      List.drop_append_of_le_length long]
    split at h
    next body rest' hs =>
      rw [splitBalanced?_append hs]
      dsimp only
      split at h
      next => simp at h
      next declares =>
        obtain ⟨rfl, rfl⟩ := Cut.piece.inj h
        rw [if_neg declares]
    next => simp at h
  next => simp at h

theorem cutInstruction_append (h : cutInstruction cs = .piece p rest) (q : List Char) :
    cutInstruction (cs ++ q) = .piece p (rest ++ q) := by
  unfold cutInstruction at h ⊢
  split at h
  next => simp at h
  next shared =>
    obtain ⟨before, hs, -⟩ := Cut.ofSplit_eq_piece h
    have long : 2 ≤ cs.length := length_le_of_splitAt? hs
    have short : ">".toList.length ≤ cs.length := Nat.le_trans (by decide) long
    rw [isPrefixOf_append_of_le short, if_neg shared]
    exact Cut.ofSplit_append (fun _ _ hs => splitAt?_append hs q) h

/-- A complete piece of markup is the same piece whatever follows it. -/
theorem cut_append (h : cut cs = .piece p rest) (markup : p ≠ .plain) (q : List Char) :
    cut (cs ++ q) = .piece p (rest ++ q) := by
  unfold cut at h
  split at h
  · simp at h
  · exact cutDeclaration_append h q
  · exact cutInstruction_append h q
  · exact Cut.ofSplit_append (fun _ _ hs => splitTag?_append hs q) h
  · rename_i cs declaration instruction close
    cases cs with
    | nil => simp [splitTag?, Cut.ofSplit] at h
    | cons c cs =>
      have tag : cut ('<' :: c :: (cs ++ q)) =
          Cut.ofSplit Piece.ofTag (splitTag? none (c :: cs ++ q)) := by
        have bang : c ≠ '!' := fun hc => declaration cs (by rw [hc])
        have mark : c ≠ '?' := fun hc => instruction cs (by rw [hc])
        have slash : c ≠ '/' := fun hc => close cs (by rw [hc])
        simp [cut, bang, mark, slash]
      rw [List.cons_append, List.cons_append, tag]
      exact Cut.ofSplit_append (fun _ _ hs => splitTag?_append hs q) h
  · exact absurd (Cut.piece.inj h).1.symm markup

/-- A cut that is neither the end of the text nor plain text. -/
def Cut.IsMarkup : Cut → Prop
  | finished => False
  | broken => True
  | piece p _ => p ≠ .plain

theorem Cut.ofSplit_isMarkup {piece : List Char → Piece} (h : ∀ body, piece body ≠ .plain)
    (split : Option (List Char × List Char)) : (Cut.ofSplit piece split).IsMarkup := by
  cases split with
  | none => trivial
  | some parts => exact h parts.1

theorem Piece.ofTag_ne_plain (body : List Char) : Piece.ofTag body ≠ .plain := by
  unfold Piece.ofTag
  split <;> simp

theorem cutDeclaration_isMarkup (cs : List Char) : (cutDeclaration cs).IsMarkup := by
  unfold cutDeclaration
  split
  · exact Cut.ofSplit_isMarkup (by simp) _
  split
  · exact Cut.ofSplit_isMarkup (by simp) _
  split
  · split
    · split
      · trivial
      · simp [Cut.IsMarkup]
    · trivial
  · trivial

theorem cutInstruction_isMarkup (cs : List Char) : (cutInstruction cs).IsMarkup := by
  unfold cutInstruction
  split
  · trivial
  · exact Cut.ofSplit_isMarkup (by simp) _

theorem cut_isMarkup (cs : List Char) : (cut ('<' :: cs)).IsMarkup := by
  unfold cut
  split
  · contradiction
  · exact cutDeclaration_isMarkup _
  · exact cutInstruction_isMarkup _
  · exact Cut.ofSplit_isMarkup (by simp) _
  · exact Cut.ofSplit_isMarkup Piece.ofTag_ne_plain _
  · rename_i unmarked
    exact absurd rfl (unmarked cs)

theorem cut_plain {c : Char} (h : c ≠ '<') :
    cut (c :: cs) = .piece .plain ((c :: cs).dropWhile (· ≠ '<')) := by
  unfold cut
  split <;> simp_all

theorem cut_finished (h : cut cs = .finished) : cs = [] := by
  cases cs with
  | nil => rfl
  | cons c cs =>
    by_cases hc : c = '<'
    · subst hc
      have markup := cut_isMarkup cs
      rw [h] at markup
      exact absurd markup id
    · rw [cut_plain hc] at h
      simp at h

namespace Reader

variable {r next : Reader} {element : Option Element} {unclosed : List (List Char)}

theorem read_event (h : r.next = .event element next) :
    r.read = (element :: next.read.1, next.read.2) := by
  rw [read]
  split
  next hf => rw [h] at hf; simp at hf
  next hb => rw [h] at hb; simp at hb
  next element' next' he =>
    obtain ⟨rfl, rfl⟩ := Delivery.event.inj (h.symm.trans he)
    rfl

theorem read_finished (h : r.next = .finished) : r.read = ([], .finished r.unclosed) := by
  rw [read]
  split
  next => rfl
  next hb => rw [h] at hb; simp at hb
  next he => rw [h] at he; simp at he

theorem read_broken (h : r.next = .broken) : r.read = ([], .broken) := by
  rw [read]
  split
  next hf => rw [h] at hf; simp at hf
  next => rfl
  next he => rw [h] at he; simp at he

/-- The elements that a reader delivers before the text ends or breaks. -/
def elements (r : Reader) : List Element := r.read.1.filterMap id

theorem elements_event (h : r.next = .event element next) :
    r.elements = element.toList ++ next.elements := by
  rw [elements, read_event h, elements]
  cases element <;> rfl

theorem elements_skip (unclosed : List (List Char)) (cs : List Char) :
    (Reader.mk unclosed (cs.dropWhile (· ≠ '<'))).elements = (Reader.mk unclosed cs).elements := by
  cases cs with
  | nil => rfl
  | cons c cs =>
    by_cases hc : c = '<'
    · rw [List.dropWhile_cons_of_neg (by simpa using hc)]
    · have event : (Reader.mk unclosed (c :: cs)).next =
          .event none ⟨unclosed, (c :: cs).dropWhile (· ≠ '<')⟩ := by
        rw [Reader.next, cut_plain hc]
      rw [elements_event event]
      rfl

theorem elements_skip_append (unclosed : List (List Char)) (cs q : List Char) :
    (Reader.mk unclosed (cs.dropWhile (· ≠ '<') ++ q)).elements =
      (Reader.mk unclosed (cs ++ q)).elements := by
  rw [← elements_skip unclosed (cs ++ q), List.dropWhile_append]
  split
  next empty =>
    rw [List.isEmpty_iff.mp empty, List.nil_append, elements_skip]
  next => rfl

/-- An event at a complete piece of markup is the same whatever text follows it. -/
theorem next_append {p : Piece} (h : cut r.rest = .piece p rest) (markup : p ≠ .plain)
    (event : r.next = .event element next) (q : List Char) :
    (Reader.mk r.unclosed (r.rest ++ q)).next =
      .event element ⟨next.unclosed, next.rest ++ q⟩ := by
  have longer := cut_append h markup q
  rw [Reader.next, h] at event
  rw [Reader.next]
  dsimp only
  rw [longer]
  cases p with
  | close body =>
    dsimp only at event ⊢
    split at event
    next => simp at event
    next name outer open' =>
      split at event
      next closes =>
        obtain ⟨rfl, rfl⟩ := Delivery.event.inj event
        rw [if_pos closes]
      next => simp at event
  | plain => exact absurd rfl markup
  | _ =>
    obtain ⟨rfl, rfl⟩ := Delivery.event.inj event
    rfl

theorem rest_of_finished (h : r.next = .finished) : r.rest = [] := by
  rw [Reader.next] at h
  cases hcut : cut r.rest with
  | finished => exact cut_finished hcut
  | broken => simp [hcut] at h
  | piece p rest =>
    rw [hcut] at h
    cases p with
    | close body =>
      dsimp only at h
      split at h
      · simp at h
      · split at h <;> simp at h
    | _ => simp at h

/-- What follows the bytes of an event is read as it is read alone. -/
theorem elements_of_event (event : r.next = .event element next) (q : List Char) :
    (Reader.mk r.unclosed (r.rest ++ q)).elements =
      element.toList ++ (Reader.mk next.unclosed (next.rest ++ q)).elements := by
  obtain ⟨unclosed, cs⟩ := r
  cases cs with
  | nil => simp [Reader.next, cut] at event
  | cons c cs =>
    by_cases hc : c = '<'
    · subst hc
      have markup := cut_isMarkup cs
      generalize hcut : cut ('<' :: cs) = found at markup
      cases found with
      | finished => exact absurd markup id
      | broken => simp [Reader.next, hcut] at event
      | piece p rest =>
        have later := next_append (r := ⟨unclosed, '<' :: cs⟩) hcut markup event q
        rw [elements_event later]
    · rw [Reader.next, cut_plain hc] at event
      obtain ⟨rfl, rfl⟩ := Delivery.event.inj event
      exact (elements_skip_append unclosed (c :: cs) q).symm

/-- The elements of a text that is read to its end come before those of what is put behind it. -/
theorem elements_append (h : r.read.2 = .finished unclosed) (q : List Char) :
    (Reader.mk r.unclosed (r.rest ++ q)).elements =
      r.elements ++ (Reader.mk unclosed q).elements := by
  -- Along the events of the first text. At its end nothing of it is left to read.
  induction r using Reader.read.induct with
  | case1 r finished =>
    have empty := rest_of_finished finished
    rw [read_finished finished] at h
    obtain rfl := Ending.finished.inj h
    have none : r.elements = [] := by rw [elements, read_finished finished]; rfl
    rw [empty, none]
    rfl
  | case2 r broken =>
    rw [read_broken broken] at h
    simp at h
  | case3 r element next event _ _ _ _ ih =>
    rw [read_event event] at h
    rw [elements_of_event event, elements_event event, ih h, List.append_assoc]

end Reader

end PhotoCapture.Markup
