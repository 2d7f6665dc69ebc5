import PhotoCapture.Text.Numeral

namespace PhotoCapture.Numeral

variable {cs rest : List Char}

theorem isDigit_digit {d : Nat} (h : d < 10) : (digit d).isDigit = true := by
  revert d
  decide

theorem digitValue_digit {d : Nat} (h : d < 10) : digitValue (digit d) = d := by
  revert d
  decide

theorem digit_ne_zero {d : Nat} (h : d < 10) (positive : 0 < d) : digit d ≠ '0' := by
  revert d
  decide

theorem isDigit_of_mem_digits (n : Nat) : ∀ c ∈ digits n, c.isDigit = true := by
  fun_induction digits n with
  | case1 n small =>
    intro c hc
    rw [List.mem_singleton.mp hc]
    exact isDigit_digit small
  | case2 n large ih =>
    intro c hc
    rcases List.mem_append.mp hc with hc | hc
    · exact ih c hc
    · rw [List.mem_singleton.mp hc]
      exact isDigit_digit (by omega)

theorem value_digits (n : Nat) : value (digits n) = n := by
  fun_induction digits n with
  | case1 n small => simp [value, digitValue_digit small]
  | case2 n large ih =>
    have last : digitValue (digit (n % 10)) = n % 10 := digitValue_digit (by omega)
    unfold value at ih ⊢
    rw [List.foldl_append, ih, List.foldl_cons, List.foldl_nil, last]
    omega

theorem digits_eq_cons (n : Nat) :
    ∃ first others, digits n = first :: others ∧ (first = '0' → n = 0 ∧ others = []) := by
  fun_induction digits n with
  | case1 n small =>
    have positive (zero : digit n = '0') : ¬ 0 < n := fun h => digit_ne_zero small h zero
    exact ⟨digit n, [], rfl, fun zero => ⟨Nat.eq_zero_of_not_pos (positive zero), rfl⟩⟩
  | case2 n large ih =>
    obtain ⟨first, others, split, nonzero⟩ := ih
    refine ⟨first, others ++ [digit (n % 10)], by rw [split, List.cons_append], fun zero => ?_⟩
    have := (nonzero zero).1
    omega

section Taking

theorem takeDigits_of_digits (digits : ∀ c ∈ cs, c.isDigit = true) : takeDigits cs = (cs, []) := by
  have taken : (cs ++ []).takeWhile Char.isDigit = cs ++ [].takeWhile Char.isDigit :=
    List.takeWhile_append_of_pos digits
  have left : (cs ++ []).dropWhile Char.isDigit = [].dropWhile Char.isDigit :=
    List.dropWhile_append_of_pos digits
  simp only [List.append_nil, List.takeWhile_nil, List.dropWhile_nil] at taken left
  rw [takeDigits, taken, left]

theorem takeDigits_append (stops : ∀ c ∈ rest.head?, c.isDigit = false) (cs : List Char) :
    takeDigits (cs ++ rest) = ((takeDigits cs).1, (takeDigits cs).2 ++ rest) := by
  induction cs with
  | nil =>
    cases rest with
    | nil => rfl
    | cons c more => simp [takeDigits, stops c rfl]
  | cons c cs ih =>
    simp only [takeDigits, Prod.mk.injEq, List.cons_append] at ih ⊢
    by_cases hc : c.isDigit = true
    · simp only [List.takeWhile_cons_of_pos hc, List.dropWhile_cons_of_pos hc, ih, and_self]
    · simp only [List.takeWhile_cons_of_neg hc, List.dropWhile_cons_of_neg hc, List.cons_append,
        and_self]

end Taking

end PhotoCapture.Numeral
