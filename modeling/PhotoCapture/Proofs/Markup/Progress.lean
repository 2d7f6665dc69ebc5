import PhotoCapture.Proofs.Markup.Locality
import PhotoCapture.Proofs.Markup.Repetition

namespace PhotoCapture.Markup

variable {mark cs before after rest : List Char} {p : Piece}

/-- The second text is what is left of the first one behind at least one character. -/
def Advances (cs rest : List Char) : Prop := ∃ taken, taken ≠ [] ∧ cs = taken ++ rest

theorem advances_of_suffix (left : rest <:+ cs) (shorter : rest.length < cs.length) :
    Advances cs rest := by
  obtain ⟨taken, rfl⟩ := left
  refine ⟨taken, ?_, rfl⟩
  rintro rfl
  exact Nat.lt_irrefl _ shorter

theorem Advances.length_lt (h : Advances cs rest) : rest.length < cs.length := by
  obtain ⟨taken, nonempty, rfl⟩ := h
  have := List.length_pos_of_ne_nil nonempty
  rw [List.length_append]
  omega

section Pieces

theorem suffix_of_map_cons {split : Option (List Char × List Char)} {c : Char}
    (h : split.map (fun (before, after) => (c :: before, after)) = some (before, after))
    (further : ∀ b, split = some (b, after) → after <:+ cs) : after <:+ c :: cs := by
  obtain ⟨⟨b, a⟩, hs, he⟩ := Option.map_eq_some_iff.mp h
  obtain ⟨-, rfl⟩ := Prod.mk.inj he
  exact (further b hs).trans (List.suffix_cons c cs)

theorem splitAt?_suffix (h : splitAt? mark cs = some (before, after)) : after <:+ cs := by
  induction cs generalizing before with
  | nil =>
    simp only [splitAt?] at h
    split at h
    next => simp_all
    next => contradiction
  | cons c cs ih =>
    simp only [splitAt?] at h
    split at h
    next found =>
      obtain ⟨-, rfl⟩ := Prod.mk.inj (Option.some.inj h)
      exact List.drop_suffix _ _
    next missing => exact suffix_of_map_cons h fun b hs => ih hs

theorem splitTag?_suffix {quote : Option Char} (h : splitTag? quote cs = some (before, after)) :
    after <:+ cs := by
  induction cs generalizing quote before with
  | nil => simp [splitTag?] at h
  | cons c cs ih =>
    simp only [splitTag?] at h
    cases quote with
    | some mark => exact suffix_of_map_cons h fun b hs => ih hs
    | none =>
      dsimp only at h
      split at h
      next closed =>
        obtain ⟨-, rfl⟩ := Prod.mk.inj (Option.some.inj h)
        exact List.suffix_cons c cs
      next => exact suffix_of_map_cons h fun b hs => ih hs

theorem splitBalanced?_suffix {depth : Nat}
    (h : splitBalanced? depth cs = some (before, after)) : after <:+ cs := by
  induction cs generalizing depth before with
  | nil => simp [splitBalanced?] at h
  | cons c cs ih =>
    simp only [splitBalanced?] at h
    split at h
    next => exact suffix_of_map_cons h fun b hs => ih hs
    next =>
      split at h
      next closed =>
        cases depth with
        | zero =>
          obtain ⟨-, rfl⟩ := Prod.mk.inj (Option.some.inj h)
          exact List.suffix_cons c cs
        | succ depth => exact suffix_of_map_cons h fun b hs => ih hs
      next => exact suffix_of_map_cons h fun b hs => ih hs

theorem cutDeclaration_suffix (h : cutDeclaration cs = .piece p rest) : rest <:+ cs := by
  unfold cutDeclaration at h
  split at h
  next =>
    obtain ⟨_, hs, _⟩ := Cut.ofSplit_eq_piece h
    exact (splitAt?_suffix hs).trans (List.drop_suffix 2 cs)
  next =>
    split at h
    next =>
      obtain ⟨_, hs, _⟩ := Cut.ofSplit_eq_piece h
      exact (splitAt?_suffix hs).trans (List.drop_suffix 7 cs)
    next =>
      split at h
      next =>
        split at h
        next hs =>
          split at h
          next => cases h
          next =>
            obtain ⟨-, rfl⟩ := Cut.piece.inj h
            exact (splitBalanced?_suffix hs).trans (List.drop_suffix 7 cs)
        next => cases h
      next => cases h

theorem cutInstruction_suffix (h : cutInstruction cs = .piece p rest) : rest <:+ cs := by
  unfold cutInstruction at h
  split at h
  next => cases h
  next =>
    obtain ⟨_, hs, _⟩ := Cut.ofSplit_eq_piece h
    exact splitAt?_suffix hs

theorem cut_suffix (h : cut cs = .piece p rest) : rest <:+ cs := by
  unfold cut at h
  split at h
  next => cases h
  next more => exact (cutDeclaration_suffix h).trans ⟨['<', '!'], rfl⟩
  next more => exact (cutInstruction_suffix h).trans ⟨['<', '?'], rfl⟩
  next more =>
    obtain ⟨_, hs, _⟩ := Cut.ofSplit_eq_piece h
    exact (splitTag?_suffix hs).trans ⟨['<', '/'], rfl⟩
  next more _ _ _ =>
    obtain ⟨_, hs, _⟩ := Cut.ofSplit_eq_piece h
    exact (splitTag?_suffix hs).trans ⟨['<'], rfl⟩
  next =>
    obtain ⟨-, rfl⟩ := Cut.piece.inj h
    exact List.dropWhile_suffix _

end Pieces

section Attributes

def Element.length (element : Element) : Nat := element.name.length + element.attributes.length

variable {seen keys : List (List Char)} {item : Attribute}

theorem takeValue_suffix (key cs : List Char) : (takeValue key cs).2 <:+ cs := by
  have gap : cs.dropWhile isSpace <:+ cs := List.dropWhile_suffix isSpace
  unfold takeValue
  split
  next => exact List.nil_suffix
  next c rest start =>
    rw [start] at gap
    split
    next quote =>
      split
      next => exact List.nil_suffix
      next after ended =>
        have value : rest.dropWhile (· ≠ c) <:+ rest := List.dropWhile_suffix _
        rw [ended] at value
        exact ((List.suffix_cons _ after).trans value).trans ((List.suffix_cons c rest).trans gap)
    next => exact (List.dropWhile_suffix _).trans gap

/-- Every item moves forward: a malformed one as far as its key, its value or the space behind. -/
theorem nextAttribute?_advances (h : nextAttribute? seen cs = some (item, keys, rest)) :
    Advances cs rest := by
  refine advances_of_suffix ?_ (nextAttribute?_length h)
  have left {i : Attribute} {k : List (List Char)} {r : List Char}
      (same : some (i, k, r) = some (item, keys, rest)) : r = rest :=
    (Prod.mk.inj (Prod.mk.inj (Option.some.inj same)).2).2
  have gap : cs.dropWhile isSpace <:+ cs := List.dropWhile_suffix isSpace
  unfold nextAttribute? at h
  split at h
  next => contradiction
  next c more start =>
    rw [start] at gap
    have behind : (more.dropWhile fun c => c ≠ '=' && !isSpace c).dropWhile isSpace <:+ cs :=
      ((List.dropWhile_suffix _).trans (List.dropWhile_suffix _)).trans
        ((List.suffix_cons c more).trans gap)
    dsimp only at h
    split at h
    next after equals =>
      rw [equals] at behind
      have value : after <:+ cs := (List.suffix_cons _ after).trans behind
      split at h
      next repeated =>
        -- Reading goes on behind the equals sign, be it inside the quotes of the value or not.
        rw [← left h]
        exact (List.dropWhile_suffix _).trans value
      next new =>
        rw [← left h]
        exact (takeValue_suffix _ after).trans value
    next unequal =>
      rw [← left h]
      exact behind

theorem length_attributesAfter_le (seen : List (List Char)) (cs : List Char) :
    (attributesAfter seen cs).length ≤ cs.length := by
  fun_induction attributesAfter seen cs with
  | case1 => exact Nat.zero_le _
  | case2 seen cs item keys rest h shorter ih =>
    rw [List.length_cons]
    omega

end Attributes

namespace Reader

variable {r next : Reader} {element : Option Element}

theorem exists_piece_of_event (h : r.next = .event element next) :
    ∃ p, cut r.rest = .piece p next.rest := by
  unfold Reader.next at h
  split at h
  next => contradiction
  next => contradiction
  next hc =>
    obtain ⟨-, rfl⟩ := Delivery.event.inj h
    exact ⟨_, hc⟩
  next hc =>
    obtain ⟨-, rfl⟩ := Delivery.event.inj h
    exact ⟨_, hc⟩
  next hc =>
    split at h
    next => contradiction
    next =>
      split at h
      next =>
        obtain ⟨-, rfl⟩ := Delivery.event.inj h
        exact ⟨_, hc⟩
      next => contradiction
  next hc =>
    obtain ⟨-, rfl⟩ := Delivery.event.inj h
    exact ⟨_, hc⟩

theorem next_advances (h : r.next = .event element next) : Advances r.rest next.rest := by
  obtain ⟨p, hc⟩ := exists_piece_of_event h
  exact advances_of_suffix (cut_suffix hc) (cut_length hc)

theorem length_events_le (r : Reader) : r.read.1.length ≤ r.rest.length := by
  fun_induction Reader.read r with
  | case1 => exact Nat.zero_le _
  | case2 => exact Nat.zero_le _
  | case3 r element after h shorter events ending read ih =>
    rw [read] at ih
    rw [List.length_cons]
    exact Nat.lt_of_le_of_lt ih shorter

end Reader

end PhotoCapture.Markup
