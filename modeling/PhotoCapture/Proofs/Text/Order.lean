import PhotoCapture.Proofs.Text.Numeral

namespace PhotoCapture

attribute [local instance (high)] instPowNat

namespace Text

def bytes (s : String) : List UInt8 := s.toUTF8.data.toList

/-- The order of texts is decided by their starts of one length, and behind them where these are
equal. -/
theorem append_lt_append {α : Type} [LT α] {a b c d : List α} (length : a.length = b.length)
    (h : a < b ∨ a = b ∧ c < d) : a ++ c < b ++ d := by
  rcases h with h | ⟨rfl, h⟩
  · induction a generalizing b with
    | nil =>
      rw [List.eq_nil_of_length_eq_zero length.symm] at h
      exact absurd h (List.not_lt_nil _)
    | cons x a ih =>
      cases b with
      | nil => simp at length
      | cons y b =>
        rw [List.cons_append, List.cons_append, List.cons_lt_cons_iff]
        rcases List.cons_lt_cons_iff.mp h with first | ⟨rfl, rest⟩
        · exact Or.inl first
        · exact Or.inr ⟨rfl, ih (by simpa using length) rest⟩
  · exact List.append_left_lt h

variable {cs others : List Char}

def IsAscii (cs : List Char) : Prop := ∀ c ∈ cs, c.utf8Size = 1

instance (cs : List Char) : Decidable (IsAscii cs) :=
  List.decidableBAll (fun c : Char => c.utf8Size = 1) cs

theorem IsAscii.append (h : IsAscii cs) (h' : IsAscii others) : IsAscii (cs ++ others) := by
  intro c hc
  rcases List.mem_append.mp hc with hc | hc
  · exact h c hc
  · exact h' c hc

theorem isAscii_of_digits (h : ∀ c ∈ cs, c.isDigit = true) : IsAscii cs := by
  intro c hc
  have digit := Char.isDigit_iff_toNat.mp (h c hc)
  rw [Char.utf8Size_eq_one_iff, UInt32.le_iff_toNat_le]
  exact Nat.le_trans digit.2 (by decide)

theorem bytes_cons (c : Char) (cs : List Char) :
    bytes (String.ofList (c :: cs)) = String.utf8EncodeChar c ++ bytes (String.ofList cs) := by
  simp [bytes, List.utf8Encode]

theorem bytes_lt_bytes (h : IsAscii cs) (h' : IsAscii others) (lt : cs < others) :
    bytes (String.ofList cs) < bytes (String.ofList others) := by
  induction cs generalizing others with
  | nil =>
    cases others with
    | nil => exact absurd lt (List.not_lt_nil _)
    | cons d others =>
      rw [bytes_cons, String.utf8EncodeChar_eq_singleton (h' d (by simp))]
      exact List.nil_lt_cons _ _
  | cons c cs ih =>
    cases others with
    | nil => exact absurd lt (List.not_lt_nil _)
    | cons d others =>
      have hc := h c (by simp)
      have hd := h' d (by simp)
      rw [bytes_cons, bytes_cons, String.utf8EncodeChar_eq_singleton hc,
        String.utf8EncodeChar_eq_singleton hd, List.singleton_append, List.singleton_append,
        List.cons_lt_cons_iff]
      rw [Char.utf8Size_eq_one_iff, UInt32.le_iff_toNat_le] at hc hd
      rcases List.cons_lt_cons_iff.mp lt with first | ⟨rfl, rest⟩
      · left
        rw [UInt8.lt_iff_toNat_lt, UInt32.toNat_toUInt8, UInt32.toNat_toUInt8]
        rw [Char.lt_def, UInt32.lt_iff_toNat_lt] at first
        have : (127 : UInt32).toNat = 127 := rfl
        omega
      · exact Or.inr ⟨rfl, ih (fun c hc => h c (by simp [hc])) (fun c hc => h' c (by simp [hc]))
          rest⟩

end Text

namespace Numeral

open Text

variable {cs others : List Char}

theorem foldl_value (n : Nat) (cs : List Char) :
    cs.foldl (fun n c => 10 * n + digitValue c) n = n * 10 ^ cs.length + value cs := by
  induction cs generalizing n with
  | nil => simp [value]
  | cons c cs ih =>
    rw [value, List.foldl_cons, List.foldl_cons, ih, ih, List.length_cons, Nat.pow_succ]
    grind

theorem value_cons (c : Char) (cs : List Char) :
    value (c :: cs) = digitValue c * 10 ^ cs.length + value cs := by
  rw [value, List.foldl_cons, foldl_value]
  simp

theorem digitValue_lt {c : Char} (h : c.isDigit = true) : digitValue c < 10 := by
  rw [Char.isDigit_iff_toNat] at h
  simp [digitValue]
  grind

theorem lt_of_digitValue_lt {c d : Char} (h : digitValue c < digitValue d) : c < d := by
  unfold digitValue at h
  rw [Char.lt_def, UInt32.lt_iff_toNat_lt]
  change c.toNat < d.toNat
  omega

theorem eq_of_digitValue_eq {c d : Char} (hc : c.isDigit = true) (hd : d.isDigit = true)
    (h : digitValue c = digitValue d) : c = d := by
  rw [Char.isDigit_iff_toNat] at hc hd
  have zero : '0'.toNat = 48 := rfl
  unfold digitValue at h
  exact Char.toNat_inj.mp (by omega)

theorem value_lt (h : ∀ c ∈ cs, c.isDigit = true) : value cs < 10 ^ cs.length := by
  induction cs with
  | nil => decide
  | cons c cs ih =>
    have first := digitValue_lt (h c (by simp))
    have rest := ih fun c hc => h c (by simp [hc])
    rw [value_cons, List.length_cons, Nat.pow_succ]
    have := Nat.mul_le_mul_right (10 ^ cs.length) (Nat.le_of_lt_succ first)
    omega

theorem lt_of_value_lt (h : ∀ c ∈ cs, c.isDigit = true) (h' : ∀ c ∈ others, c.isDigit = true)
    (length : cs.length = others.length) (lt : value cs < value others) : cs < others := by
  induction cs generalizing others with
  | nil =>
    rw [List.eq_nil_of_length_eq_zero length.symm] at lt
    exact absurd lt (Nat.lt_irrefl _)
  | cons c cs ih =>
    cases others with
    | nil => simp at length
    | cons d others =>
      have same : cs.length = others.length := by simpa using length
      have digits : ∀ c ∈ cs, c.isDigit = true := fun x hx => h x (by simp [hx])
      have digits' : ∀ c ∈ others, c.isDigit = true := fun x hx => h' x (by simp [hx])
      have below := value_lt digits'
      rw [value_cons, value_cons, same] at lt
      rw [List.cons_lt_cons_iff]
      rcases Nat.lt_trichotomy (digitValue c) (digitValue d) with less | equal | more
      · exact Or.inl (lt_of_digitValue_lt less)
      · rw [equal] at lt
        exact Or.inr ⟨eq_of_digitValue_eq (h c (by simp)) (h' d (by simp)) equal,
          ih digits digits' same (by omega)⟩
      · have := Nat.mul_le_mul_right (10 ^ others.length) (Nat.succ_le_of_lt more)
        rw [Nat.succ_mul] at this
        omega

variable {least n : Nat}

theorem isDigit_of_mem_padded : ∀ c ∈ padded least n, c.isDigit = true := by
  intro c hc
  rcases List.mem_append.mp hc with zero | digit
  · rw [List.eq_of_mem_replicate zero]
    rfl
  · exact isDigit_of_mem_digits n c digit

theorem value_padded : value (padded least n) = n := by
  have zeros : value (List.replicate (least - (digits n).length) '0') = 0 := by
    generalize least - (digits n).length = zeros
    induction zeros with
    | zero => rfl
    | succ zeros ih => rw [List.replicate_succ, value_cons, ih]; simp [digitValue]
  rw [padded, padStart, value, List.foldl_append]
  unfold value at zeros
  rw [zeros]
  exact value_digits n

theorem length_digits_le {width : Nat} (h : n < 10 ^ (width + 1)) :
    (digits n).length ≤ width + 1 := by
  induction width generalizing n with
  | zero =>
    rw [digits, if_pos (by simpa using h)]
    exact Nat.le_refl 1
  | succ width ih =>
    rw [digits]
    split
    next => simp
    next =>
      have tens : n / 10 < 10 ^ (width + 1) := by
        rw [Nat.pow_succ] at h
        omega
      have := ih tens
      simp only [List.length_append, List.length_singleton]
      omega

theorem length_padded {width : Nat} (h : n < 10 ^ (width + 1)) :
    (padded (width + 1) n).length = width + 1 := by
  have := length_digits_le h
  simp only [padded, padStart, List.length_append, List.length_replicate]
  omega

theorem padded_lt_padded {m width : Nat} (h : m < n) (high : n < 10 ^ (width + 1)) :
    padded (width + 1) m < padded (width + 1) n :=
  lt_of_value_lt isDigit_of_mem_padded isDigit_of_mem_padded
    ((length_padded (Nat.lt_trans h high)).trans (length_padded high).symm)
    (by rwa [value_padded, value_padded])

end Numeral

end PhotoCapture
