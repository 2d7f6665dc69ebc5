import PhotoCapture.Proofs.Json.Reading
import Mathlib.Data.List.Nodup

namespace PhotoCapture.Json

variable {α β : Type}

/-- What a record has under one key: the texts that write it, the change that reading them makes,
and whether a record has it. -/
structure Component (α : Type) where
  field : Field α
  writes : List Char → Prop
  put : α → α
  holds : α → Prop
  reads : ∀ ⦃w⦄, writes w → Reads field.decoder w put
  held : ∀ r, holds (put r)

namespace Component

def of (name : String) (d : Decoder β) (set : β → α → α) (get : α → β) (x : β)
    (writes : List Char → Prop) (reads : ∀ ⦃w⦄, writes w → Reads d w x)
    (held : ∀ r, x = get (set x r)) : Component α where
  field := .of name d set
  writes := writes
  put := set x
  holds r := x = get r
  reads _ h := (reads h).map set
  held := held

/-- The component that is absent where a text has a null. -/
def optional (name : String) (d : Decoder β) (set : Option β → α → α) (get : α → Option β)
    (x : Option β) (writes : β → List Char → Prop)
    (reads : ∀ y ∈ x, ∀ ⦃w⦄, writes y w → Reads d w y ∧ IsPresent w)
    (held : ∀ r, x = get (set x r)) : Component α :=
  .of name d.optional set get x (WritesOptional writes x) (fun _ h => reads_optional reads h) held

def key (p : Component α) : List Char := p.field.name.toList

/-- The slot of a component, which may stay empty where a record has the component already. -/
def slot (r : α) (p : Component α) : Slot := ⟨p.field.name, p.writes, p.holds r⟩

/-- The components make up a record, and none changes another. -/
structure MakeUp (parts : List (Component α)) (target : α) : Prop where
  distinct : (parts.map fun p => p.field.name).Nodup
  frame : ∀ p ∈ parts, ∀ q ∈ parts, ∀ r, q.holds r → q.holds (p.put r)
  whole : ∀ r, (∀ p ∈ parts, p.holds r) → r = target

end Component

variable {parts : List (Component α)} {p : Component α} {members : List Member} {m : Member}
  {seen : List String} {target r : α} {fuel : Nat} {first : Bool} {cs w rest : List Char}

section Keys

/-- What stands behind the quotation mark that opens the key of a member. -/
def Member.behind (m : Member) (rest : List Char) : List Char :=
  m.key ++ '"' :: (m.afterKey ++ ':' :: (m.beforeValue ++ (m.value ++ (m.after ++ rest))))

/-- What stands behind a member: the members after it, and the closing bracket. -/
def others (members : List Member) (rest : List Char) : List Char :=
  (members.map Member.text).flatMap (',' :: ·) ++ '\x7d' :: rest

theorem separate_comma (x : List Char) (xs : List (List Char)) :
    separate [','] (x :: xs) = x ++ xs.flatMap (',' :: ·) := by
  induction xs generalizing x with
  | nil => exact (List.append_nil x).symm
  | cons y ys ih =>
    have step : separate [','] (x :: y :: ys) = x ++ [','] ++ separate [','] (y :: ys) := rfl
    rw [step, ih, List.append_assoc, List.flatMap_cons]
    rfl

theorem others_cons (m : Member) (members : List Member) (rest : List Char) :
    others (m :: members) rest = ',' :: (m.text ++ others members rest) := by
  simp only [others, List.map_cons, List.flatMap_cons, List.append_assoc, List.cons_append]

theorem skipSpace_others (members : List Member) (rest : List Char) :
    skipSpace (others members rest) = others members rest := by
  cases members with
  | nil => exact skipSpace_cons (by decide) rest
  | cons m members => rw [others_cons]; exact skipSpace_cons (by decide) _

theorem ends_others (members : List Member) (rest : List Char) : Ends (others members rest) := by
  cases members with
  | nil => exact Frame.object.ends_closing rest
  | cons m members => rw [others_cons]; exact ends_comma _

theorem Member.IsSpelled.skipSpace_text (h : m.IsSpelled) (rest : List Char) :
    skipSpace (m.text ++ rest) = '"' :: m.behind rest := by
  have start : m.text ++ rest = m.before ++ '"' :: m.behind rest := by
    simp only [Member.text, Member.behind, List.append_assoc, List.cons_append]
  rw [start, skipSpace_gap h.before]
  exact skipSpace_cons (by decide) _

theorem nextKey_closing (h : skipSpace cs = '\x7d' :: rest) :
    nextKey first cs = .ok (false, rest) := by
  rw [nextKey, h]
  rfl

theorem nextKey_quote (h : skipSpace cs = '"' :: rest) : nextKey true cs = .ok (true, rest) := by
  rw [nextKey, h]
  rfl

theorem nextKey_comma {more : List Char} (h : skipSpace cs = ',' :: more)
    (quote : skipSpace more = '"' :: rest) : nextKey false cs = .ok (true, rest) := by
  unfold nextKey
  rw [h]
  split
  next heq => cases heq
  next heq => exact absurd (List.cons.inj heq).1 (by decide)
  next heq =>
    obtain ⟨rfl, rfl⟩ := List.cons.inj heq
    rw [if_neg Bool.false_ne_true, if_pos rfl, quote]
    rfl

theorem readText_behind (h : m.IsSpelled) (rest : List Char) :
    readText (m.behind rest) =
      .ok (m.name, m.afterKey ++ ':' :: (m.beforeValue ++ (m.value ++ (m.after ++ rest)))) :=
  readText_spelled h.key _

theorem readColon_gap {gap : List Char} (h : IsGap gap) (rest : List Char) :
    readColon (gap ++ ':' :: rest) = .ok rest := by
  rw [readColon, skipSpace_gap h, skipSpace_cons (by decide)]
  rfl

end Keys

section Steps

variable {fields : List (Field α)} {field : Field α}

theorem readMembers_unknown (key : nextKey first cs = .ok (true, m.behind rest))
    (spelled : m.IsSpelled) (value : IsValue m.value) (ends : Ends rest)
    (unknown : (fields.find? fun f => f.name.toList = m.name) = none) :
    readMembers fields (fuel + 1) first seen r cs =
      readMembers fields fuel false seen r (m.after ++ rest) := by
  have passed := skipValue_append value (ends.of_gap spelled.after)
    (skipSpace_gap spelled.beforeValue _)
  rw [readMembers]
  simp only [key, bind, Except.bind, readText_behind spelled, unknown,
    readColon_gap spelled.afterKey, passed]

theorem readMembers_known {put : α → α} (key : nextKey first cs = .ok (true, m.behind rest))
    (spelled : m.IsSpelled) (value : Reads field.decoder m.value put) (ends : Ends rest)
    (known : (fields.find? fun f => f.name.toList = m.name) = some field)
    (unseen : field.name ∉ seen) :
    readMembers fields (fuel + 1) first seen r cs =
      readMembers fields fuel false (field.name :: seen) (put r) (m.after ++ rest) := by
  have read := value (ends.of_gap spelled.after) (skipSpace_gap spelled.beforeValue _)
  rw [readMembers]
  simp only [key, bind, Except.bind, readText_behind spelled, known, if_neg unseen,
    readColon_gap spelled.afterKey, read]

end Steps

section Reading

/-- The members to come write components of the record under keys not seen so far, and what they
leave out the record has already. -/
structure Awaits (parts : List (Component α)) (members : List Member) (seen : List String) (r : α) :
    Prop where
  spelled : ∀ m ∈ members, m.IsSpelled
  known : ∀ m ∈ members, ∀ p ∈ parts, m.name = p.key → p.writes m.value
  unknown : ∀ m ∈ members, (∀ p ∈ parts, m.name ≠ p.key) → IsValue m.value
  once : members.Pairwise fun m n => m.name = n.name → ∀ p ∈ parts, m.name ≠ p.key
  unseen : ∀ m ∈ members, ∀ p ∈ parts, m.name = p.key → p.field.name ∉ seen
  held : ∀ p ∈ parts, (∀ m ∈ members, m.name ≠ p.key) → p.holds r

theorem Fills.awaits (h : Fills (parts.map (Component.slot r)) members) :
    Awaits parts members [] r where
  spelled := h.spelled
  known m hm p hp := h.known m hm _ (List.mem_map_of_mem hp)
  unknown m hm other := h.unknown m hm (List.forall_mem_map.mpr other)
  once := by
    refine h.once.imp fun once same p hp => ?_
    exact once same (p.slot r) (List.mem_map_of_mem hp)
  unseen _ _ _ _ _ := List.not_mem_nil
  held p hp := h.left_out _ (List.mem_map_of_mem hp)

namespace Awaits

theorem unknown_member (h : Awaits parts (m :: members) seen r)
    (unknown : ∀ p ∈ parts, m.name ≠ p.key) : Awaits parts members seen r where
  spelled n hn := h.spelled n (.tail _ hn)
  known n hn := h.known n (.tail _ hn)
  unknown n hn := h.unknown n (.tail _ hn)
  once := (List.pairwise_cons.mp h.once).2
  unseen n hn := h.unseen n (.tail _ hn)
  held p hp none := h.held p hp (List.forall_mem_cons.mpr ⟨unknown p hp, none⟩)

theorem known_member (made : Component.MakeUp parts target) (h : Awaits parts (m :: members) seen r)
    (hp : p ∈ parts) (name : m.name = p.key) :
    Awaits parts members (p.field.name :: seen) (p.put r) where
  spelled n hn := h.spelled n (.tail _ hn)
  known n hn := h.known n (.tail _ hn)
  unknown n hn := h.unknown n (.tail _ hn)
  once := (List.pairwise_cons.mp h.once).2
  unseen n hn q hq eq := by
    have different : q.field.name ≠ p.field.name := by
      intro same
      have again : m.name = n.name := by rw [name, eq, Component.key, Component.key, same]
      exact (List.pairwise_cons.mp h.once).1 n hn again p hp name
    exact fun mem => (List.mem_cons.mp mem).elim different (h.unseen n (.tail _ hn) q hq eq)
  held q hq none := by
    by_cases same : q.field.name = p.field.name
    · obtain rfl := List.inj_on_of_nodup_map made.distinct hq hp same
      exact q.held r
    · have other : m.name ≠ q.key := fun eq => same (String.toList_inj.mp (eq.symm.trans name))
      exact made.frame p hp q hq r (h.held q hq (List.forall_mem_cons.mpr ⟨other, none⟩))

/-- One member, whether its key is known or not. -/
theorem step (made : Component.MakeUp parts target) (h : Awaits parts (m :: members) seen r)
    (key : nextKey first cs = .ok (true, m.behind rest)) (ends : Ends rest) (fuel : Nat) :
    ∃ seen' r', Awaits parts members seen' r' ∧
      readMembers (parts.map Component.field) (fuel + 1) first seen r cs =
        readMembers (parts.map Component.field) fuel false seen' r' (m.after ++ rest) := by
  have spelled := h.spelled m List.mem_cons_self
  have fields : ((parts.map Component.field).find? fun f => f.name.toList = m.name) =
      (parts.find? fun p => p.key = m.name).map Component.field := List.find?_map ..
  cases found : parts.find? fun p => p.key = m.name with
  | none =>
    rw [found] at fields
    have unknown : ∀ p ∈ parts, m.name ≠ p.key := fun p hp same =>
      List.find?_eq_none.mp found p hp (decide_eq_true same.symm)
    have value := h.unknown m List.mem_cons_self unknown
    exact ⟨_, _, h.unknown_member unknown, readMembers_unknown key spelled value ends fields⟩
  | some p =>
    rw [found] at fields
    have hp := List.mem_of_find?_eq_some found
    have same := List.find?_some found
    have name : m.name = p.key := (of_decide_eq_true same).symm
    have value := p.reads (h.known m List.mem_cons_self p hp name)
    have unseen := h.unseen m List.mem_cons_self p hp name
    exact ⟨_, _, h.known_member made hp name,
      readMembers_known key spelled value ends fields unseen⟩

/-- The end of the object, where the record has all its components. -/
theorem close (made : Component.MakeUp parts target) (h : Awaits parts [] seen r)
    (closing : skipSpace cs = '\x7d' :: rest) (fuel : Nat) :
    readMembers (parts.map Component.field) (fuel + 1) first seen r cs = .ok (target, rest) := by
  have done : r = target := made.whole r fun p hp => h.held p hp fun _ hm => nomatch hm
  rw [readMembers, nextKey_closing closing, done]
  rfl

theorem read (made : Component.MakeUp parts target) (h : Awaits parts members seen r)
    (enough : members.length < fuel) (start : skipSpace cs = others members rest) :
    readMembers (parts.map Component.field) fuel false seen r cs = .ok (target, rest) := by
  -- on the members to come: each one leaves a record that awaits the others
  induction members generalizing fuel seen r cs with
  | nil =>
    obtain ⟨fuel, rfl⟩ : ∃ n, fuel = n + 1 := ⟨fuel - 1, by omega⟩
    exact h.close made start fuel
  | cons m members ih =>
    simp only [List.length_cons] at enough
    obtain ⟨fuel, rfl⟩ : ∃ n, fuel = n + 1 := ⟨fuel - 1, by omega⟩
    have spelled := h.spelled m List.mem_cons_self
    rw [others_cons] at start
    have key := nextKey_comma start (spelled.skipSpace_text _)
    obtain ⟨seen', r', awaits, step⟩ := h.step made key (ends_others members rest) fuel
    rw [step]
    exact ih awaits (by omega) (by rw [skipSpace_gap spelled.after, skipSpace_others])

end Awaits

theorem length_le_others (members : List Member) (rest : List Char) :
    members.length ≤ (others members rest).length := by
  induction members with
  | nil => exact Nat.zero_le _
  | cons m members ih =>
    rw [others_cons]
    simp only [List.length_cons, List.length_append]
    omega

theorem IsObject.cases_text (h : IsObject members w) (rest : List Char) :
    ∃ more, w ++ rest = '\x7b' :: more ∧
      (members = [] ∧ skipSpace more = '\x7d' :: rest ∨
        ∃ m ms, members = m :: ms ∧ more = m.text ++ others ms rest) := by
  cases h with
  | empty gap =>
    refine ⟨_, by rw [List.cons_append, List.cons_append, List.append_assoc], .inl ⟨rfl, ?_⟩⟩
    rw [skipSpace_gap gap]
    exact skipSpace_cons (by decide) rest
  | filled some =>
    obtain ⟨m, ms, rfl⟩ := List.exists_cons_of_ne_nil some
    refine ⟨m.text ++ others ms rest, ?_, .inr ⟨m, ms, rfl, rfl⟩⟩
    rw [List.map_cons, separate_comma, others]
    simp only [List.append_assoc, List.cons_append, List.nil_append]

theorem readMembers_object (made : Component.MakeUp parts target) (h : Awaits parts members [] r)
    (object : IsObject members w) {more : List Char} (start : w ++ rest = '\x7b' :: more) :
    readMembers (parts.map Component.field) (more.length + 1) true [] r more =
      .ok (target, rest) := by
  obtain ⟨_, eq, cases⟩ := object.cases_text rest
  obtain ⟨-, rfl⟩ := List.cons.inj (start.symm.trans eq)
  rcases cases with ⟨rfl, closing⟩ | ⟨m, ms, rfl, rfl⟩
  · exact h.close made closing more.length
  · have spelled := h.spelled m List.mem_cons_self
    have key := nextKey_quote (spelled.skipSpace_text (others ms rest))
    obtain ⟨seen', r', awaits, step⟩ :=
      h.step made key (ends_others ms rest) (m.text ++ others ms rest).length
    have enough : ms.length < (m.text ++ others ms rest).length := by
      have := length_le_others ms rest
      have : 0 < m.text.length := by
        simp only [Member.text, List.length_append, List.length_cons]
        omega
      rw [List.length_append]
      omega
    rw [step]
    exact awaits.read made enough (by rw [skipSpace_gap spelled.after, skipSpace_others])

end Reading

section Records

variable {name text : String}

/-- An object that fills the slots of a record is read as the record. -/
theorem reads_record (made : Component.MakeUp parts target)
    (h : IsRecord (parts.map (Component.slot r)) w) :
    Reads (.record name (parts.map Component.field) r) w target := by
  obtain ⟨members, fills, object⟩ := h
  intro cs rest _ start
  obtain ⟨more, opening, -⟩ := object.cases_text rest
  have first : skipSpace cs = '\x7b' :: more := by
    rw [start, opening]
    exact skipSpace_cons (by decide) more
  rw [Decoder.record, Decoder.start_eq first]
  exact readMembers_object made fills.awaits object opening

/-- A text that holds nothing but such an object decodes to the record. -/
theorem decode_record (made : Component.MakeUp parts target)
    (h : HoldsRecord (parts.map (Component.slot r)) text) :
    (Decoder.record name (parts.map Component.field) r).decode text = .ok target := by
  obtain ⟨before, w, after, hbefore, record, hafter, eq⟩ := h
  have ends : Ends after := by
    rw [← List.append_nil after]
    exact ends_nil.of_gap hafter
  have start : skipSpace text.toList = skipSpace (w ++ after) := by
    rw [eq, List.append_assoc, skipSpace_gap hbefore]
  rw [Decoder.decode, reads_record made record ends start]
  simp only [bind, Except.bind, skipSpace_of_gap hafter]
  rfl

end Records

end PhotoCapture.Json
