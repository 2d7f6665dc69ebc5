import PhotoCapture.Proofs.Json.Grammar
import PhotoCapture.Proofs.Text.Numeral

namespace PhotoCapture.Json

open Numeral (takeDigits)

variable {cs ds w sign fraction exponent rest : List Char}

theorem Ends.no_digit (h : Ends rest) : ∀ c ∈ rest.head?, c.isDigit = false :=
  fun _ hc => (h.not_numeric hc).1

theorem IsDigits.takeDigits_append (h : IsDigits ds) (stops : ∀ c ∈ rest.head?, c.isDigit = false) :
    takeDigits (ds ++ rest) = (ds, rest) := by
  rw [Numeral.takeDigits_append stops, Numeral.takeDigits_of_digits h.digits, List.nil_append]

theorem IsDigits.exists_first (h : IsDigits ds) : ∃ c more, ds = c :: more ∧ c.isDigit = true := by
  obtain ⟨c, more, rfl⟩ := List.exists_cons_of_ne_nil h.nonempty
  exact ⟨c, more, rfl, h.digits c List.mem_cons_self⟩

section Skipping

theorem skipExponent_append (signed : sign = [] ∨ sign = ['+'] ∨ sign = ['-']) (h : IsDigits ds)
    (ends : Ends rest) : skipExponent (sign ++ ds ++ rest) = .ok rest := by
  have dropped : (ds ++ rest).dropWhile Char.isDigit = rest :=
    congrArg Prod.snd (h.takeDigits_append ends.no_digit)
  obtain ⟨c, more, rfl, first⟩ := h.exists_first
  have plus : c ≠ '+' := by rintro rfl; exact absurd first (by decide)
  have minus : c ≠ '-' := by rintro rfl; exact absurd first (by decide)
  rw [List.cons_append] at dropped
  unfold skipExponent
  rcases signed with rfl | rfl | rfl
  · simp [plus, minus, first, dropped]
  · simp only [List.cons_append, List.nil_append, first, if_true, dropped]
  · simp only [List.cons_append, List.nil_append, first, if_true, dropped]

theorem head_exponent (h : IsExponent exponent) (ends : Ends rest) :
    ∀ c ∈ (exponent ++ rest).head?, c.isDigit = false ∧ c ≠ '.' := by
  cases h with
  | none => exact fun c hc => ⟨(ends.not_numeric hc).1, (ends.not_numeric hc).2.1⟩
  | power letter _ _ =>
    intro c hc
    obtain rfl := Option.some.inj hc
    rcases letter with rfl | rfl <;> decide

theorem head_fraction (h : IsFraction fraction) (stops : ∀ c ∈ rest.head?, c.isDigit = false) :
    ∀ c ∈ (fraction ++ rest).head?, c.isDigit = false := by
  cases h with
  | none => exact stops
  | decimals _ =>
    intro c hc
    obtain rfl := Option.some.inj hc
    decide

theorem exponent_passed (h : IsExponent exponent) (ends : Ends rest) :
    (match exponent ++ rest with
      | c :: more => if c = 'e' ∨ c = 'E' then skipExponent more else .ok (exponent ++ rest)
      | [] => .ok (exponent ++ rest)) = .ok rest := by
  cases h with
  | none =>
    rw [List.nil_append]
    cases rest with
    | nil => rfl
    | cons c more =>
      obtain ⟨-, -, small, capital⟩ := ends.not_numeric rfl
      exact if_neg (by rintro (same | same) <;> contradiction)
  | power letter signed digits =>
    simp only [List.cons_append, letter, if_true]
    exact skipExponent_append signed digits ends

theorem skipNumber_append (h : IsUnsigned w) (ends : Ends rest) :
    skipNumber (w ++ rest) = .ok rest := by
  obtain ⟨hwhole, hfraction, hexponent⟩ := h
  rename_i whole fraction exponent
  have behind := head_exponent hexponent ends
  have stops : ∀ c ∈ (exponent ++ rest).head?, c.isDigit = false := fun c hc => (behind c hc).1
  have taken := hwhole.takeDigits_append (head_fraction hfraction stops)
  obtain ⟨first, others, rfl, -⟩ := hwhole.exists_first
  have zeros : ¬ (first = '0' ∧ ¬ others.isEmpty = true) := by
    rintro ⟨rfl, more⟩
    have alone := hwhole.no_zeros rfl
    simp_all
  unfold skipNumber
  rw [List.append_assoc, List.append_assoc, taken]
  simp only [if_neg zeros]
  cases hfraction with
  | none =>
    rw [List.nil_append]
    split
    next more point => exact absurd rfl (behind '.' (by rw [point]; rfl)).2
    next => exact exponent_passed hexponent ends
  | decimals digits =>
    have decimals := digits.takeDigits_append stops
    obtain ⟨d, ds, rfl, -⟩ := digits.exists_first
    simp only [List.cons_append] at decimals ⊢
    simp only [decimals, List.isEmpty_cons, Bool.false_eq_true, if_false]
    exact exponent_passed hexponent ends

end Skipping

section Reading

variable {negative : Bool} {significand : Nat} {exp : Int} {n : Number} {r : List Char}

theorem realNumber_append (h : realNumber negative significand exp cs = .ok (n, r))
    (rest : List Char) :
    realNumber negative significand exp (cs ++ rest) = .ok (n, r ++ rest) := by
  unfold realNumber at h ⊢
  split at h
  next x hx => cases h; rfl
  next => cases h

theorem readExponentDigits_append (ends : Ends rest) (value : Nat) (cs : List Char) :
    readExponentDigits value (cs ++ rest) =
      match readExponentDigits value cs with
      | .ok (n, r) => .ok (n, r ++ rest)
      | .error r => .error (r ++ rest) := by
  induction cs generalizing value with
  | nil =>
    cases rest with
    | nil => rfl
    | cons c more => simp [readExponentDigits, ends.no_digit c rfl]
  | cons c cs ih =>
    simp only [List.cons_append, readExponentDigits]
    split
    · split
      · exact ih _
      · rfl
    · rfl

theorem dropWhile_digits_append (ends : Ends rest) (cs : List Char) :
    (cs ++ rest).dropWhile Char.isDigit = cs.dropWhile Char.isDigit ++ rest :=
  congrArg Prod.snd (Numeral.takeDigits_append ends.no_digit cs)

def takeSign : List Char → Bool × List Char
  | '+' :: more => (false, more)
  | '-' :: more => (true, more)
  | cs => (false, cs)

def readPower (negative : Bool) (significand : Nat) (exp : Int) (down : Bool) :
    List Char → Except Fault (Number × List Char)
  | [] => stop [] .endOfValue
  | c :: cs =>
    if c.isDigit then
      match readExponentDigits 0 (c :: cs) with
      | .ok (n, rest) => realNumber negative significand (if down then exp - n else exp + n) rest
      | .error rest =>
        if significand ≠ 0 ∧ ¬down then stop rest .numberOutOfRange
        else .ok (.real (Binary.ofRank negative 0), rest.dropWhile Char.isDigit)
    else stopAt (c :: cs) .invalidNumber

theorem readExponent_eq (negative : Bool) (significand : Nat) (exp : Int) (cs : List Char) :
    readExponent negative significand exp cs =
      readPower negative significand exp (takeSign cs).1 (takeSign cs).2 := by
  cases cs with
  | nil => rfl
  | cons c more =>
    by_cases plus : c = '+'
    · subst plus; cases more <;> rfl
    · by_cases minus : c = '-'
      · subst minus; cases more <;> rfl
      · have unsigned : takeSign (c :: more) = (false, c :: more) := by simp [takeSign, plus, minus]
        rw [unsigned, readExponent]
        · rfl
        · exact fun _ h => plus (List.cons.inj h).1
        · exact fun _ h => minus (List.cons.inj h).1

theorem takeSign_append (c : Char) (cs rest : List Char) :
    takeSign (c :: cs ++ rest) = ((takeSign (c :: cs)).1, (takeSign (c :: cs)).2 ++ rest) := by
  by_cases plus : c = '+'
  · subst plus; rfl
  · by_cases minus : c = '-'
    · subst minus; rfl
    · simp [takeSign, plus, minus]

theorem readPower_append {down : Bool} (h : readPower negative significand exp down cs = .ok (n, r))
    (ends : Ends rest) :
    readPower negative significand exp down (cs ++ rest) = .ok (n, r ++ rest) := by
  cases cs with
  | nil => cases h
  | cons c more =>
    simp only [readPower, List.cons_append] at h ⊢
    split at h
    next digit =>
      rw [if_pos digit, ← List.cons_append, readExponentDigits_append ends]
      cases count : readExponentDigits 0 (c :: more) with
      | ok result =>
        rw [count] at h
        exact realNumber_append h rest
      | error left =>
        rw [count] at h
        dsimp only at h ⊢
        split at h
        next => cases h
        next small =>
          cases h
          rw [if_neg small, dropWhile_digits_append ends]
    next => cases h

theorem readExponent_append (h : readExponent negative significand exp cs = .ok (n, r))
    (ends : Ends rest) :
    readExponent negative significand exp (cs ++ rest) = .ok (n, r ++ rest) := by
  cases cs with
  | nil => cases h
  | cons c more =>
    rw [readExponent_eq] at h ⊢
    rw [takeSign_append]
    exact readPower_append h ends

theorem readFraction_append (h : readFraction negative significand exp cs = .ok (n, r))
    (ends : Ends rest) :
    readFraction negative significand exp (cs ++ rest) = .ok (n, r ++ rest) := by
  unfold readFraction at h ⊢
  rw [Numeral.takeDigits_append ends.no_digit]
  generalize takeDigits cs = taken at h ⊢
  obtain ⟨written, left⟩ := taken
  dsimp only at h ⊢
  split at h
  next => split at h <;> cases h
  next some =>
    rw [if_neg some]
    cases left with
    | nil =>
      have whole := realNumber_append h rest
      cases rest with
      | nil => exact whole
      | cons c more =>
        obtain ⟨-, -, small, capital⟩ := ends.not_numeric rfl
        simpa [small, capital] using whole
    | cons c more =>
      dsimp only [List.cons_append] at h ⊢
      split at h
      next letter =>
        rw [if_pos letter]
        exact readExponent_append h ends
      next other =>
        rw [if_neg other]
        exact realNumber_append h rest

/-- What a number is read as does not depend on what follows its end. -/
theorem readNumber_append (h : readNumber negative cs = .ok (n, r)) (ends : Ends rest) :
    readNumber negative (cs ++ rest) = .ok (n, r ++ rest) := by
  unfold readNumber at h ⊢
  rw [Numeral.takeDigits_append ends.no_digit]
  generalize takeDigits cs = taken at h ⊢
  obtain ⟨written, left⟩ := taken
  cases written with
  | nil => dsimp only at h; split at h <;> cases h
  | cons first others =>
    dsimp only at h ⊢
    split at h
    next => cases h
    next zeros =>
      rw [if_neg zeros]
      cases left with
      | nil =>
        dsimp only [List.nil_append] at h ⊢
        have whole : (if (addDigits 0 (first :: others)).2 = 0 then
            .ok (wholeNumber negative (addDigits 0 (first :: others)).1, rest)
          else realNumber negative (addDigits 0 (first :: others)).1
            (addDigits 0 (first :: others)).2 rest) = .ok (n, r ++ rest) := by
          split at h
          next small => cases h; rw [if_pos small]; rfl
          next large => rw [if_neg large]; exact realNumber_append h rest
        cases rest with
        | nil => exact whole
        | cons c more =>
          obtain ⟨-, point, small, capital⟩ := ends.not_numeric rfl
          split
          next heq => cases heq; exact absurd rfl point
          next c' more' _ heq => cases heq; rw [if_neg (by simp [small, capital])]; exact whole
          next heq => cases heq
      | cons c more =>
        by_cases point : c = '.'
        · subst point
          exact readFraction_append h ends
        · simp only [List.cons_append] at h ⊢
          split at h
          next letter =>
            rw [if_pos letter]
            exact readExponent_append h ends
          next other =>
            rw [if_neg other]
            split at h
            next small => cases h; rw [if_pos small]; rfl
            next large => rw [if_neg large]; exact realNumber_append h rest

end Reading

section Numerals

variable {significand n : Nat}

theorem le_foldl_digits (significand : Nat) (ds : List Char) :
    significand ≤ ds.foldl (fun n c => 10 * n + Numeral.digitValue c) significand := by
  induction ds generalizing significand with
  | nil => exact Nat.le_refl significand
  | cons c ds ih =>
    have := ih (10 * significand + Numeral.digitValue c)
    simp only [List.foldl_cons]
    omega

theorem addDigits_eq
    (h : ds.foldl (fun n c => 10 * n + Numeral.digitValue c) significand ≤ greatestSignificand) :
    addDigits significand ds =
      (ds.foldl (fun n c => 10 * n + Numeral.digitValue c) significand, 0) := by
  induction ds generalizing significand with
  | nil => rfl
  | cons c ds ih =>
    have next := le_foldl_digits (10 * significand + Numeral.digitValue c) ds
    rw [List.foldl_cons] at h ⊢
    rw [addDigits, if_pos (Nat.le_trans next h), ih h]

theorem readNumber_digits (negative : Bool) (small : n ≤ greatestSignificand) (ends : Ends rest) :
    readNumber negative (Numeral.digits n ++ rest) = .ok (wholeNumber negative n, rest) := by
  have value : (Numeral.digits n).foldl (fun n c => 10 * n + Numeral.digitValue c) 0 = n :=
    Numeral.value_digits n
  have counted : addDigits 0 (Numeral.digits n) = (n, 0) := by
    rw [addDigits_eq (by rwa [value]), value]
  have taken := Numeral.takeDigits_of_digits (Numeral.isDigit_of_mem_digits n)
  have alone : readNumber negative (Numeral.digits n) = .ok (wholeNumber negative n, []) := by
    obtain ⟨first, others, split, nonzero⟩ := Numeral.digits_eq_cons n
    have zeros : ¬ (first = '0' ∧ ¬ others.isEmpty = true) := by
      rintro ⟨zero, more⟩
      rw [(nonzero zero).2] at more
      exact more rfl
    unfold readNumber
    rw [taken, split]
    simp only [if_neg zeros, ← split, counted, if_true]
  exact readNumber_append alone ends

end Numerals

end PhotoCapture.Json
