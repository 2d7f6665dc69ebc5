import PhotoCapture.Proofs.Json.Record

namespace PhotoCapture.Json

variable {members : List Member} {slots : List Slot} {w : List Char} {key : List Char} {v : Value}

namespace Member

def pair (m : Member) : List Char × List Char := (m.name, m.value)

/-- A member as it is written, with white space around the key and the value. -/
def written (before beforeValue after key value : List Char) : Member :=
  ⟨before, key.flatMap escapeChar, key, [], beforeValue, value, after⟩

theorem written_isSpelled {before beforeValue after : List Char} (hbefore : IsGap before)
    (hvalue : IsGap beforeValue) (hafter : IsGap after) (key value : List Char) :
    (written before beforeValue after key value).IsSpelled :=
  ⟨hbefore, spells_escaped key, isGap_nil, hvalue, hafter⟩

end Member

/-- The text of an object whose members have some names and values, in their order. -/
def WritesObject (pairs : List (List Char × List Char)) (w : List Char) : Prop :=
  ∃ members, (∀ m ∈ members, m.IsSpelled) ∧ members.map Member.pair = pairs ∧ IsObject members w

theorem separate_more (separator x : List Char) {xs : List (List Char)} (h : xs ≠ []) :
    separate separator (x :: xs) = x ++ separator ++ separate separator xs := by
  cases xs with
  | nil => exact absurd rfl h
  | cons y ys => rfl

section Compact

def Member.compact (m : List Char × Value) : Member := .written [] [] [] m.1 m.2.compact

theorem text_compact (members : List (List Char × Value)) :
    (members.map Member.compact).map Member.text = compactMembers members := by
  induction members with
  | nil => rfl
  | cons m members ih =>
    obtain ⟨key, v⟩ := m
    have head : (Member.compact (key, v)).text = writeText key ++ ':' :: v.compact := by
      simp [Member.compact, Member.written, Member.text, writeText]
    rw [List.map_cons, List.map_cons, ih, head, compactMembers]

theorem writesObject_compact (members : List (List Char × Value)) :
    WritesObject (members.map fun m => (m.1, m.2.compact)) (Value.object members).compact := by
  refine ⟨members.map Member.compact, ?_, ?_, ?_⟩
  · intro m hm
    obtain ⟨n, -, rfl⟩ := List.mem_map.mp hm
    exact Member.written_isSpelled isGap_nil isGap_nil isGap_nil n.1 n.2.compact
  · exact List.map_map ..
  · rw [Value.compact, ← text_compact]
    cases members with
    | nil => exact .empty isGap_nil
    | cons m members => exact .filled (List.cons_ne_nil _ _)

end Compact

section Pretty

theorem isGap_newLine (indent : Nat) : IsGap (newLine indent) := by
  intro c hc
  rcases List.mem_cons.mp hc with rfl | hc
  · decide
  · rw [List.eq_of_mem_replicate hc]
    decide

theorem isGap_space : IsGap [' '] := by
  intro c hc
  rw [List.mem_singleton.mp hc]
  decide

/-- The members of an object with one member to a line. White space stands behind the last. -/
def Member.pretty (indent : Nat) : List (List Char × Value) → List Member
  | [] => []
  | [m] => [.written (newLine (indent + 2)) [' '] (newLine indent) m.1 (m.2.pretty (indent + 2))]
  | m :: n :: members =>
    .written (newLine (indent + 2)) [' '] [] m.1 (m.2.pretty (indent + 2)) ::
      pretty indent (n :: members)

theorem pretty_ne_nil (indent : Nat) (m : List Char × Value) (members : List (List Char × Value)) :
    Member.pretty indent (m :: members) ≠ [] := by
  cases members <;> exact List.cons_ne_nil _ _

theorem text_pretty (indent : Nat) (m : List Char × Value) (members : List (List Char × Value)) :
    separate [','] ((Member.pretty indent (m :: members)).map Member.text) =
      newLine (indent + 2) ++
        separate (',' :: newLine (indent + 2)) (prettyMembers (indent + 2) (m :: members)) ++
        newLine indent := by
  induction members generalizing m with
  | nil =>
    simp [Member.pretty, Member.written, Member.text, separate, prettyMembers, writeText]
  | cons n members ih =>
    have more : (Member.pretty indent (n :: members)).map Member.text ≠ [] :=
      fun none => pretty_ne_nil indent n members (List.map_eq_nil_iff.mp none)
    have parts : prettyMembers (indent + 2) (n :: members) ≠ [] := List.cons_ne_nil _ _
    have step : prettyMembers (indent + 2) (m :: n :: members) =
        (writeText m.1 ++ ':' :: ' ' :: m.2.pretty (indent + 2)) ::
          prettyMembers (indent + 2) (n :: members) := rfl
    rw [Member.pretty, List.map_cons, separate_more _ _ more, ih, step, separate_more _ _ parts]
    simp only [Member.written, Member.text, writeText, List.append_assoc, List.cons_append,
      List.nil_append]

theorem pair_pretty (indent : Nat) (members : List (List Char × Value)) :
    (Member.pretty indent members).map Member.pair =
      members.map fun m => (m.1, m.2.pretty (indent + 2)) := by
  fun_induction Member.pretty indent members with
  | case1 => rfl
  | case2 m => rfl
  | case3 m n members ih => rw [List.map_cons, ih]; rfl

theorem pretty_isSpelled (indent : Nat) (members : List (List Char × Value)) :
    ∀ m ∈ Member.pretty indent members, m.IsSpelled := by
  have line := isGap_newLine (indent + 2)
  fun_induction Member.pretty indent members with
  | case1 => exact fun m hm => nomatch hm
  | case2 m =>
    have last := Member.written_isSpelled line isGap_space (isGap_newLine indent) m.1
    exact List.forall_mem_singleton.mpr (last _)
  | case3 m n members ih =>
    have first := Member.written_isSpelled line isGap_space isGap_nil m.1
    exact List.forall_mem_cons.mpr ⟨first _, ih⟩

theorem writesObject_pretty (indent : Nat) (members : List (List Char × Value)) :
    WritesObject (members.map fun m => (m.1, m.2.pretty (indent + 2)))
      ((Value.object members).pretty indent) := by
  refine ⟨_, pretty_isSpelled indent members, pair_pretty indent members, ?_⟩
  cases members with
  | nil => exact .empty isGap_nil
  | cons m members =>
    have parts : (prettyMembers (indent + 2) (m :: members)).isEmpty = false := rfl
    have object := IsObject.filled (pretty_ne_nil indent m members)
    rw [text_pretty] at object
    rw [Value.pretty, bracketed, if_neg (by rw [parts]; decide)]
    simpa using object

end Pretty

section Records

variable {choices : List (Slot × Option (List Char))}

/-- What is written for a slot, or that nothing is. -/
def Slot.Takes (slot : Slot) : Option (List Char) → Prop
  | none => slot.missing
  | some w => slot.writes w

theorem optional_takes {α : Type} {writes : α → List Char → Prop} {f : α → List Char} {x : Option α}
    (h : ∀ y ∈ x, writes y (f y)) (key : String) :
    (Slot.optional key writes x).Takes (x.map f) := by
  cases x with
  | none => rfl
  | some y => exact h y rfl

/-- The names and values of the slots for which something is written. -/
def chosen (choices : List (Slot × Option (List Char))) : List (List Char × List Char) :=
  choices.flatMap fun c => (c.2.map fun w => (c.1.key.toList, w)).toList

theorem mem_chosen {name value : List Char} : (name, value) ∈ chosen choices ↔
    ∃ slot, (slot, some value) ∈ choices ∧ slot.key.toList = name := by
  unfold chosen
  constructor
  · intro h
    obtain ⟨⟨slot, written⟩, hc, h⟩ := List.mem_flatMap.mp h
    obtain ⟨w, rfl, eq⟩ := Option.map_eq_some_iff.mp (Option.mem_toList.mp h)
    obtain ⟨rfl, rfl⟩ := Prod.mk.inj eq
    exact ⟨slot, hc, rfl⟩
  · rintro ⟨slot, hc, rfl⟩
    exact List.mem_flatMap.mpr ⟨_, hc, Option.mem_toList.mpr rfl⟩

theorem pairwise_chosen (distinct : (choices.map fun c => c.1.key).Nodup) :
    (chosen choices).Pairwise fun a b => a.1 ≠ b.1 := by
  refine List.pairwise_flatMap.mpr ⟨fun c _ => ?_, (List.pairwise_map.mp distinct).imp ?_⟩
  · cases c.2 with
    | none => exact .nil
    | some w => exact List.pairwise_singleton _ _
  · intro c d differ a ha b hb
    obtain ⟨_, -, rfl⟩ := Option.map_eq_some_iff.mp (Option.mem_toList.mp ha)
    obtain ⟨_, -, rfl⟩ := Option.map_eq_some_iff.mp (Option.mem_toList.mp hb)
    exact fun same => differ (String.toList_inj.mp same)

/-- An object with what its slots take, under keys that differ, is a record. -/
theorem isRecord_of_chosen (distinct : (choices.map fun c => c.1.key).Nodup)
    (takes : ∀ c ∈ choices, c.1.Takes c.2) (object : WritesObject (chosen choices) w) :
    IsRecord (choices.map (·.1)) w := by
  obtain ⟨members, spelled, pairs, isObject⟩ := object
  have origin : ∀ m ∈ members,
      ∃ slot, (slot, some m.value) ∈ choices ∧ slot.key.toList = m.name := by
    intro m hm
    apply mem_chosen.mp
    rw [← pairs]
    exact List.mem_map_of_mem hm
  refine ⟨members, ⟨spelled, ?_, ?_, ?_, ?_⟩, isObject⟩
  · intro m hm slot hslot name
    obtain ⟨⟨slot, written⟩, hc, rfl⟩ := List.mem_map.mp hslot
    obtain ⟨other, ho, same⟩ := origin m hm
    have eq := List.inj_on_of_nodup_map distinct ho hc (String.toList_inj.mp (same.trans name))
    obtain ⟨rfl, rfl⟩ := Prod.mk.inj eq
    exact takes _ ho
  · intro m hm unknown
    obtain ⟨slot, ho, same⟩ := origin m hm
    exact absurd same.symm (unknown slot (List.mem_map_of_mem ho))
  · have distinct := pairwise_chosen distinct
    rw [← pairs] at distinct
    exact (List.pairwise_map.mp distinct).imp fun differ same => absurd same differ
  · intro slot hslot none
    obtain ⟨⟨slot, written⟩, hc, rfl⟩ := List.mem_map.mp hslot
    cases written with
    | none => exact takes _ hc
    | some w =>
      have mem := mem_chosen.mpr ⟨slot, hc, rfl⟩
      rw [← pairs] at mem
      obtain ⟨m, hm, eq⟩ := List.mem_map.mp mem
      exact absurd (Prod.mk.inj eq).1 (none m hm)

theorem isRecord_of_written {written : List (Option (List Char))}
    (length : slots.length = written.length) (distinct : (slots.map Slot.key).Nodup)
    (takes : ∀ c ∈ slots.zip written, c.1.Takes c.2)
    (object : WritesObject (chosen (slots.zip written)) w) : IsRecord slots w := by
  have firsts : (slots.zip written).map (·.1) = slots := List.map_fst_zip (Nat.le_of_eq length)
  have keys : (slots.zip written).map (fun c => c.1.key) = slots.map Slot.key := by
    rw [← congrArg (List.map Slot.key) firsts, List.map_map]
    rfl
  have record := isRecord_of_chosen (keys ▸ distinct) takes object
  rwa [firsts] at record

theorem holdsRecord_ofList (h : IsRecord slots w) : HoldsRecord slots (String.ofList w) :=
  ⟨[], w, [], isGap_nil, h, isGap_nil, by rw [String.toList_ofList, List.append_nil, List.nil_append]⟩

end Records

end PhotoCapture.Json
