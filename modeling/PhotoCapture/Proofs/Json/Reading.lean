import PhotoCapture.Proofs.Json.Skipping

namespace PhotoCapture.Json

variable {α β : Type} {d : Decoder α} {x : α} {c : Char} {w xs cs rest : List Char}
  {expected : String}

/-- The decoder reads a text as a value and stops behind it. -/
def Reads (d : Decoder α) (w : List Char) (x : α) : Prop :=
  ∀ ⦃cs rest⦄, Ends rest → skipSpace cs = skipSpace (w ++ rest) → d cs = .ok (x, rest)

/-- The number in 64-bit arithmetic that a text is read as. -/
def WritesReal (x : Double) (w : List Char) : Prop := Decoder.real "f64" w = .ok (x, [])

theorem writesReal_iff {x : Double} :
    WritesReal x w ↔ (Decoder.real "f64" w).toOption = some (x, []) := by
  unfold WritesReal
  cases Decoder.real "f64" w with
  | error fault => exact ⟨fun h => (nomatch h), fun h => (nomatch h)⟩
  | ok r => exact ⟨fun h => congrArg _ (Except.ok.inj h), fun h => congrArg _ (Option.some.inj h)⟩

instance {x : Double} : Decidable (WritesReal x w) := decidable_of_iff' _ writesReal_iff

section Starts

def StartsWith (w : List Char) (c : Char) : Prop := (skipSpace w).head? = some c

theorem StartsWith.skipSpace_append (h : StartsWith w c) (rest : List Char) :
    skipSpace (w ++ rest) = skipSpace w ++ rest := by
  have some : (skipSpace w).isEmpty = false := by
    cases skip : skipSpace w with
    | nil => rw [StartsWith, skip] at h; cases h
    | cons => rfl
  unfold skipSpace at some ⊢
  rw [List.dropWhile_append, some]
  rfl

theorem StartsWith.exists_more (h : StartsWith w c) : ∃ more, skipSpace w = c :: more := by
  cases skip : skipSpace w with
  | nil => rw [StartsWith, skip] at h; cases h
  | cons first more =>
    rw [StartsWith, skip] at h
    exact ⟨more, by rw [Option.some.inj h]⟩

/-- A text that does not start as a null does. -/
def IsPresent (w : List Char) : Prop := ∃ c, StartsWith w c ∧ c ≠ 'n'

theorem Decoder.start_eq (h : skipSpace cs = c :: rest) : d.start cs = d (c :: rest) := by
  rw [Decoder.start, h]

end Starts

section Texts

theorem skipSpace_quote (h : skipSpace cs = skipSpace ('"' :: w ++ ['"'] ++ rest)) :
    skipSpace cs = '"' :: (w ++ '"' :: rest) := by
  rw [h, List.append_assoc, List.cons_append, skipSpace_cons (by decide)]
  rfl

theorem reads_text {s : String} (h : WritesText s.toList w) :
    Reads (.text expected) w s ∧ IsPresent w := by
  obtain ⟨spelling, spells, rfl⟩ := h
  have starts : StartsWith ('"' :: spelling ++ ['"']) '"' :=
    congrArg List.head? (skipSpace_cons (by decide) _)
  refine ⟨fun cs rest _ start => ?_, '"', starts, by decide⟩
  rw [Decoder.text, Decoder.start_eq (skipSpace_quote start)]
  simp only [readText_spelled spells, Except.map, String.ofList_toList]

theorem reads_variant {values : List (String × α)} {name : String} {x : α}
    (h : WritesText name.toList w)
    (found : values.find? (fun v => v.1.toList = name.toList) = some (name, x)) :
    Reads (.variant values) w x := by
  obtain ⟨spelling, spells, rfl⟩ := h
  intro cs rest _ start
  rw [Decoder.variant, Decoder.start_eq (skipSpace_quote start)]
  simp only
  rw [Decoder.named, Decoder.start_eq (skipSpace_cons (by decide) _)]
  simp only [readText_spelled spells, bind, Except.bind, found]
  rfl

end Texts

section Numbers

theorem number_of_minus (h : skipSpace cs = '-' :: rest) :
    Decoder.number expected cs = readNumber true rest := by
  rw [Decoder.number, Decoder.start_eq h]
  rfl

theorem number_of_digit (h : skipSpace cs = c :: rest) (digit : c.isDigit = true) :
    Decoder.number expected cs = readNumber false (c :: rest) := by
  have minus : c ≠ '-' := by rintro rfl; exact absurd digit (by decide)
  rw [Decoder.number, Decoder.start_eq h]
  split
  next heq => exact absurd (List.cons.inj heq).1 minus
  next heq => cases heq; exact if_pos digit
  next heq => cases heq

theorem bind_ne_ok {γ δ : Type} {e : Except Fault γ} {f : γ → Except Fault δ} {r : δ}
    (h : ∀ a, f a ≠ .ok r) : (e >>= f) ≠ .ok r := by
  cases e with
  | error fault => exact fun same => nomatch same
  | ok a => exact h a

theorem mismatch_ne_ok (cs : List Char) (r : α × List Char) : mismatch expected cs ≠ .ok r := by
  have wrong (found : Found) (rest : List Char) :
      (stop rest (.wrongType found expected) : Except Fault (α × List Char)) ≠ .ok r :=
    fun same => nomatch same
  unfold mismatch
  split
  next => exact bind_ne_ok (wrong .null)
  next => exact bind_ne_ok (wrong (.boolean true))
  next => exact bind_ne_ok (wrong (.boolean false))
  next =>
    refine bind_ne_ok ?_
    rintro ⟨n | x, rest⟩
    · exact wrong (.integer n) rest
    · exact wrong (.real x) rest
  next => exact bind_ne_ok fun a => wrong (.text a.1) a.2
  next rest => exact wrong .list _
  next rest => exact wrong .object _
  next =>
    split
    next =>
      refine bind_ne_ok ?_
      rintro ⟨n | x, rest⟩
      · exact wrong (.integer n) rest
      · exact wrong (.real x) rest
    next => exact fun same => nomatch same
  next => exact fun same => nomatch same

/-- A number that stands alone is read alike in front of any text, and never taken for a null. -/
theorem reads_number {n : Number} (h : Decoder.number expected w = .ok (n, [])) :
    Reads (.number expected) w n ∧ IsPresent w := by
  cases skip : skipSpace w with
  | nil => rw [Decoder.number, Decoder.start, skip] at h; cases h
  | cons c more =>
    have starts : StartsWith w c := by rw [StartsWith, skip]; rfl
    by_cases minus : c = '-'
    · subst minus
      rw [number_of_minus skip] at h
      refine ⟨fun cs rest ends start => ?_, '-', starts, by decide⟩
      rw [starts.skipSpace_append, skip] at start
      rw [number_of_minus start]
      exact readNumber_append h ends
    · by_cases digit : c.isDigit = true
      · rw [number_of_digit skip digit] at h
        have notNull : c ≠ 'n' := by rintro rfl; exact absurd digit (by decide)
        refine ⟨fun cs rest ends start => ?_, c, starts, notNull⟩
        rw [starts.skipSpace_append, skip] at start
        rw [number_of_digit start digit]
        exact readNumber_append h ends
      · rw [Decoder.number, Decoder.start_eq skip] at h
        simp only [digit] at h
        exact absurd h (mismatch_ne_ok _ _)

theorem reads_real {x : Double} (h : WritesReal x w) :
    Reads (.real "f64") w x ∧ IsPresent w := by
  unfold WritesReal Decoder.real at h
  cases number : Decoder.number "f64" w with
  | error fault => rw [number] at h; cases h
  | ok r =>
    obtain ⟨n, left⟩ := r
    rw [number] at h
    cases n with
    | whole m =>
      obtain ⟨rfl, rfl⟩ := Prod.mk.inj (Except.ok.inj h)
      obtain ⟨reads, starts⟩ := reads_number number
      refine ⟨fun cs rest ends start => ?_, starts⟩
      rw [Decoder.real, reads ends start]
      rfl
    | real y =>
      obtain ⟨rfl, rfl⟩ := Prod.mk.inj (Except.ok.inj h)
      obtain ⟨reads, starts⟩ := reads_number number
      refine ⟨fun cs rest ends start => ?_, starts⟩
      rw [Decoder.real, reads ends start]
      rfl

theorem number_signed (expected : String) {n : Int} (low : Int64.minValue.toInt ≤ n) (high : n ≤ greatestSignificand) :
    Decoder.number expected (Numeral.signed n) = .ok (.whole n, []) := by
  have least : Int64.minValue.toInt = -9223372036854775808 := by decide
  have greatest : greatestSignificand = 18446744073709551615 := by decide
  have digits (negative : Bool) :
      readNumber negative (Numeral.digits n.natAbs) = .ok (wholeNumber negative n.natAbs, []) := by
    have small : n.natAbs ≤ greatestSignificand := by omega
    simpa only [List.append_nil] using readNumber_digits negative small ends_nil
  unfold Numeral.signed
  split
  next negative =>
    have value : -(n.natAbs : Int) = n := by omega
    have whole : wholeNumber true n.natAbs = .whole n := by
      have held : 0 < n.natAbs ∧ Int64.minValue.toInt ≤ -(n.natAbs : Int) := by omega
      rw [wholeNumber, if_pos rfl, if_pos held, value]
    rw [number_of_minus (skipSpace_cons (by decide) _), digits, whole]
  next positive =>
    have value : (n.natAbs : Int) = n := by omega
    have whole : wholeNumber false n.natAbs = .whole n := congrArg Number.whole value
    obtain ⟨c, more, split, -⟩ := Numeral.digits_eq_cons n.natAbs
    have digit : c.isDigit = true :=
      Numeral.isDigit_of_mem_digits n.natAbs c (by rw [split]; exact List.mem_cons_self)
    have first : skipSpace (Numeral.digits n.natAbs) = c :: more := by
      rw [split, skipSpace_cons (isSpace_of_digit digit)]
    rw [number_of_digit first digit, ← split, digits, whole]

theorem reads_integer (expected : String) {n least greatest : Int}
    (bounded : least ≤ n ∧ n ≤ greatest) (low : Int64.minValue.toInt ≤ n)
    (high : n ≤ greatestSignificand) :
    Reads (.integer expected least greatest) (Numeral.signed n) n ∧
      IsPresent (Numeral.signed n) := by
  obtain ⟨reads, starts⟩ := reads_number (number_signed expected low high)
  refine ⟨fun cs rest ends start => ?_, starts⟩
  rw [Decoder.integer, reads ends start]
  exact if_pos bounded

end Numbers

theorem Reads.map (h : Reads d w x) (f : α → β) : Reads (d.map f) w (f x) := by
  intro cs rest ends start
  rw [Decoder.map, h ends start]
  rfl

theorem reads_null : Reads d.optional "null".toList none := by
  intro cs rest _ start
  have null : skipSpace cs = 'n' :: ("ull".toList ++ rest) :=
    start.trans (skipSpace_cons (by decide) _)
  rw [Decoder.optional, null]
  rfl

theorem Reads.some (h : Reads d w x) (present : IsPresent w) : Reads d.optional w (some x) := by
  obtain ⟨c, starts, notNull⟩ := present
  intro cs rest ends start
  obtain ⟨more, first⟩ := starts.exists_more
  have skip : skipSpace cs = c :: (more ++ rest) := by
    rw [start, starts.skipSpace_append, first, List.cons_append]
  have again : skipSpace (c :: (more ++ rest)) = skipSpace (w ++ rest) := by
    rw [← skip, skipSpace_idem, start]
  rw [Decoder.optional, skip]
  split
  next heq => exact absurd (List.cons.inj heq).1 notNull
  next => exact h.map Option.some ends again

theorem reads_optional {x : Option α} {writes : α → List Char → Prop}
    (reads : ∀ y ∈ x, ∀ ⦃w⦄, writes y w → Reads d w y ∧ IsPresent w)
    (h : WritesOptional writes x w) : Reads d.optional w x := by
  cases x with
  | none =>
    obtain rfl : w = "null".toList := h
    exact reads_null
  | some y =>
    obtain ⟨reads, present⟩ := reads y rfl h
    exact reads.some present

end PhotoCapture.Json
