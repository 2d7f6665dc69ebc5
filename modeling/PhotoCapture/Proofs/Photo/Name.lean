import PhotoCapture.Photo.Name
import PhotoCapture.Proofs.Calendar.Order
import PhotoCapture.Proofs.Text.Order

namespace PhotoCapture.Photo

open Calendar Numeral Text

section

variable {m n : Int} {rest rest' : List Char}

theorem length_twoDigits (low : 0 ≤ n) (high : n < 100) : (twoDigits n).length = 2 := by
  have small : n.toNat < 100 := by omega
  exact length_padded small

theorem twoDigits_inj (low : 0 ≤ m) (high : m < 100) (low' : 0 ≤ n) (high' : n < 100)
    (h : twoDigits m ++ rest = twoDigits n ++ rest') : m = n ∧ rest = rest' := by
  have lengths : (twoDigits m).length = (twoDigits n).length := by
    rw [length_twoDigits low high, length_twoDigits low' high']
  obtain ⟨same, rests⟩ := List.append_inj h lengths
  have values := congrArg value same
  rw [twoDigits, twoDigits, value_padded, value_padded] at values
  exact ⟨by omega, rests⟩

theorem twoDigits_lt (low : 0 ≤ m) (high : n < 100) (h : m < n ∨ m = n ∧ rest < rest') :
    twoDigits m ++ rest < twoDigits n ++ rest' := by
  rcases h with h | ⟨rfl, h⟩
  · have order : m.toNat < n.toNat := by omega
    have small : n.toNat < 100 := by omega
    have lengths : (twoDigits m).length = (twoDigits n).length := by
      rw [length_twoDigits low (by omega), length_twoDigits (by omega) high]
    exact append_lt_append lengths (Or.inl (padded_lt_padded order small))
  · exact List.append_left_lt h

/-- The year that is written by digits behind a sign or without one. -/
def readYear : List Char → Int
  | '-' :: cs => -(value cs : Int)
  | '+' :: cs => value cs
  | cs => value cs

theorem readYear_of_digits {cs : List Char} (h : ∀ c ∈ cs, c.isDigit = true) :
    readYear cs = value cs := by
  unfold readYear
  split
  next cs => exact absurd (h '-' (by simp)) (by decide)
  next cs => rfl
  next => rfl

theorem readYear_yearText (year : Int) : readYear (yearText year) = year := by
  unfold yearText
  split
  next negative =>
    change -(value (padded 4 year.natAbs) : Int) = year
    rw [value_padded]
    omega
  next =>
    split
    next large =>
      change (value (padded 4 year.natAbs) : Int) = year
      rw [value_padded]
      omega
    next =>
      rw [List.nil_append, readYear_of_digits isDigit_of_mem_padded, value_padded]
      omega

theorem yearText_inj (h : yearText m = yearText n) : m = n := by
  rw [← readYear_yearText m, h, readYear_yearText]

theorem yearText_plain (low : 0 ≤ n) (high : n ≤ 9999) : yearText n = padded 4 n.natAbs := by
  simp [yearText, Int.not_lt.mpr low, Int.not_lt.mpr high]

theorem yearText_lt (low : 0 ≤ m) (high : n ≤ 9999) (h : m < n ∨ m = n ∧ rest < rest') :
    yearText m ++ rest < yearText n ++ rest' := by
  rcases h with h | ⟨rfl, h⟩
  · have order : m.natAbs < n.natAbs := by omega
    have small : n.natAbs < 10000 := by omega
    have small' : m.natAbs < 10000 := by omega
    have lengths : (padded 4 m.natAbs).length = (padded 4 n.natAbs).length :=
      (length_padded small').trans (length_padded small).symm
    rw [yearText_plain low (by omega), yearText_plain (by omega) high]
    exact append_lt_append lengths (Or.inl (padded_lt_padded order small))
  · exact List.append_left_lt h

end

section

variable {clock other : Clock}

def restOfStamp (clock : Clock) : List Char :=
  twoDigits clock.date.month ++ (twoDigits clock.date.day ++ (['_'] ++
    (twoDigits clock.hour ++ (twoDigits clock.minute ++ (twoDigits clock.second ++ [])))))

theorem stamp_eq (clock : Clock) :
    stamp clock = yearText clock.date.year ++ restOfStamp clock := by
  simp [stamp, restOfStamp]

theorem length_restOfStamp (range : clock.InRange) : (restOfStamp clock).length = 11 := by
  obtain ⟨month, day, hour, minute, second⟩ := range
  have months := length_twoDigits (n := clock.date.month) (by omega) (by omega)
  have days := length_twoDigits (n := clock.date.day) (by omega) (by omega)
  have hours := length_twoDigits (n := clock.hour) (by omega) (by omega)
  have minutes := length_twoDigits (n := clock.minute) (by omega) (by omega)
  have seconds := length_twoDigits (n := clock.second) (by omega) (by omega)
  simp only [restOfStamp, List.length_append, months, days, hours, minutes, seconds,
    List.length_singleton, List.length_nil]

theorem length_stamp (range : clock.InRange) (low : 0 ≤ clock.date.year)
    (high : clock.date.year ≤ 9999) : (stamp clock).length = 15 := by
  have small : clock.date.year.natAbs < 10000 := by omega
  rw [stamp_eq, yearText_plain low high, List.length_append, length_padded small,
    length_restOfStamp range]

/-- A stamp tells the fields of its clock, whatever the length of its year. -/
theorem stamp_inj (range : clock.InRange) (range' : other.InRange)
    (h : stamp clock = stamp other) : clock = other := by
  rw [stamp_eq, stamp_eq] at h
  -- Years differ in their lengths, all that stands behind them does not.
  have lengths : (restOfStamp clock).length = (restOfStamp other).length := by
    rw [length_restOfStamp range, length_restOfStamp range']
  obtain ⟨years, h⟩ := List.append_inj' h lengths
  obtain ⟨month, day, hour, minute, second⟩ := range
  obtain ⟨month', day', hour', minute', second'⟩ := range'
  obtain ⟨months, h⟩ := twoDigits_inj (by omega) (by omega) (by omega) (by omega) h
  obtain ⟨days, h⟩ := twoDigits_inj (by omega) (by omega) (by omega) (by omega) h
  have h := List.append_cancel_left h
  obtain ⟨hours, h⟩ := twoDigits_inj (by omega) (by omega) (by omega) (by omega) h
  obtain ⟨minutes, h⟩ := twoDigits_inj (by omega) (by omega) (by omega) (by omega) h
  obtain ⟨seconds, -⟩ := twoDigits_inj (by omega) (by omega) (by omega) (by omega) h
  obtain ⟨⟨_, _, _⟩, _, _, _⟩ := clock
  obtain ⟨⟨_, _, _⟩, _, _, _⟩ := other
  simp only [Clock.mk.injEq, Date.mk.injEq]
  exact ⟨⟨yearText_inj years, months, days⟩, hours, minutes, seconds⟩

/-- Stamps whose years have four digits are in the order of their clocks. -/
theorem stamp_lt (range : clock.InRange) (range' : other.InRange) (low : 0 ≤ clock.date.year)
    (high : other.date.year ≤ 9999) (h : clock.Precedes other) : stamp clock < stamp other := by
  obtain ⟨month, day, hour, minute, second⟩ := range
  obtain ⟨month', day', hour', minute', second'⟩ := range'
  rw [stamp_eq, stamp_eq]
  apply yearText_lt low high
  -- The first field that differs decides, and the fields before it stand in the same places.
  rcases h with (years | ⟨years, months | ⟨months, days⟩⟩) | ⟨dates, times⟩
  · exact Or.inl years
  · exact Or.inr ⟨years, twoDigits_lt (by omega) (by omega) (Or.inl months)⟩
  · refine Or.inr ⟨years, twoDigits_lt (by omega) (by omega) (Or.inr ⟨months, ?_⟩)⟩
    exact twoDigits_lt (by omega) (by omega) (Or.inl days)
  · refine Or.inr ⟨by rw [dates], ?_⟩
    unfold restOfStamp
    rw [dates]
    apply List.append_left_lt
    apply List.append_left_lt
    apply List.append_left_lt
    rcases times with hours | ⟨hours, minutes | ⟨minutes, seconds⟩⟩
    · exact twoDigits_lt (by omega) (by omega) (Or.inl hours)
    · refine twoDigits_lt (by omega) (by omega) (Or.inr ⟨hours, ?_⟩)
      exact twoDigits_lt (by omega) (by omega) (Or.inl minutes)
    · refine twoDigits_lt (by omega) (by omega) (Or.inr ⟨hours, ?_⟩)
      refine twoDigits_lt (by omega) (by omega) (Or.inr ⟨minutes, ?_⟩)
      exact twoDigits_lt (by omega) (by omega) (Or.inl seconds)

end

section

theorem isAscii_yearText (year : Int) : IsAscii (yearText year) := by
  have digits : IsAscii (padded 4 year.natAbs) := isAscii_of_digits isDigit_of_mem_padded
  unfold yearText
  refine IsAscii.append ?_ digits
  split
  next => decide
  next => split <;> decide

theorem isAscii_twoDigits (n : Int) : IsAscii (twoDigits n) :=
  isAscii_of_digits isDigit_of_mem_padded

theorem isAscii_stamp (clock : Clock) : IsAscii (stamp clock) := by
  have line : IsAscii ['_'] := by decide
  have ending : IsAscii [] := by decide
  have time := (isAscii_twoDigits clock.hour).append
    ((isAscii_twoDigits clock.minute).append ((isAscii_twoDigits clock.second).append ending))
  have date := (isAscii_twoDigits clock.date.month).append
    ((isAscii_twoDigits clock.date.day).append (line.append time))
  rw [stamp_eq]
  exact (isAscii_yearText clock.date.year).append date

def nameChars (clock : Clock) : List Char := "IMG_".toList ++ stamp clock ++ ".jpg".toList

theorem fileName_eq (instant : Instant) (offset : Offset) :
    fileName instant offset = String.ofList (nameChars (instant.clock offset)) := rfl

theorem isAscii_nameChars (clock : Clock) : IsAscii (nameChars clock) := by
  have first : IsAscii "IMG_".toList := by decide
  have last : IsAscii ".jpg".toList := by decide
  exact (first.append (isAscii_stamp clock)).append last

end

section

variable {second second' : Int} {nanos nanos' : Nat} {instant other : Instant}

theorem ofUnix?_eq (h : Instant.ofUnix? second nanos = some instant) (plain : nanos < 1000000000) :
    instant.second = second ∧ instant.leap = false := by
  unfold Instant.ofUnix? at h
  split at h
  next =>
    rw [← Option.some.inj h]
    exact ⟨rfl, decide_eq_false (Nat.not_le.mpr plain)⟩
  next => simp at h

theorem fileName_inj (offset : Offset) (h : fileName instant offset = fileName other offset) :
    instant.clock offset = other.clock offset := by
  rw [fileName_eq, fileName_eq, String.ofList_inj] at h
  have behind := List.append_cancel_right h
  have stamps := List.append_cancel_left behind
  exact stamp_inj (instant.clock_inRange offset) (other.clock_inRange offset) stamps

theorem second_eq_of_fileName_eq (offset : Offset) (plain : instant.leap = false)
    (plain' : other.leap = false) (h : fileName instant offset = fileName other offset) :
    instant.second = other.second := by
  have same := fileName_inj offset h
  rcases Int.lt_trichotomy instant.second other.second with earlier | equal | later
  · exact absurd same (Instant.clock_precedes offset plain plain' earlier).ne
  · exact equal
  · exact absurd same.symm (Instant.clock_precedes offset plain' plain later).ne

/-- The year that a clock shows is written with four digits and no sign. -/
def HasPlainYear (instant : Instant) (offset : Offset) : Prop :=
  0 ≤ (instant.clock offset).date.year ∧ (instant.clock offset).date.year ≤ 9999

theorem fileName_lt (offset : Offset) (plain : instant.leap = false) (plain' : other.leap = false)
    (year : HasPlainYear instant offset) (year' : HasPlainYear other offset)
    (h : instant.second < other.second) :
    bytes (fileName instant offset) < bytes (fileName other offset) := by
  have range := instant.clock_inRange offset
  have range' := other.clock_inRange offset
  have stamps := stamp_lt range range' year.1 year'.2
    (Instant.clock_precedes offset plain plain' h)
  have lengths : (stamp (instant.clock offset)).length = (stamp (other.clock offset)).length := by
    rw [length_stamp range year.1 year.2, length_stamp range' year'.1 year'.2]
  rw [fileName_eq, fileName_eq]
  apply bytes_lt_bytes (isAscii_nameChars _) (isAscii_nameChars _)
  refine append_lt_append ?_ (Or.inl (List.append_left_lt stamps))
  rw [List.length_append, List.length_append, lengths]

/-- Photos have the same name exactly when they were taken within the same second, and while
years have four digits, names sort as bytes in the order of the seconds. -/
theorem names_follow_seconds (offset : Offset)
    (taken : Instant.ofUnix? second nanos = some instant) (plain : nanos < 1000000000)
    (taken' : Instant.ofUnix? second' nanos' = some other) (plain' : nanos' < 1000000000) :
    (fileName instant offset = fileName other offset ↔ second = second') ∧
    (HasPlainYear instant offset → HasPlainYear other offset →
      (bytes (fileName instant offset) < bytes (fileName other offset) ↔ second < second')) := by
  obtain ⟨rfl, unleapt⟩ := ofUnix?_eq taken plain
  obtain ⟨rfl, unleapt'⟩ := ofUnix?_eq taken' plain'
  have same (h : instant.second = other.second) : instant = other := by
    obtain ⟨s, l⟩ := instant
    obtain ⟨s', l'⟩ := other
    simp_all
  constructor
  · constructor
    · exact second_eq_of_fileName_eq offset unleapt unleapt'
    · intro h
      rw [same h]
  · intro year year'
    constructor
    · intro names
      rcases Int.lt_trichotomy instant.second other.second with earlier | equal | later
      · exact earlier
      · rw [same equal] at names
        exact absurd names (List.lt_irrefl _)
      · have swapped := fileName_lt offset unleapt' unleapt year' year later
        exact absurd names (List.lt_asymm swapped)
    · exact fileName_lt offset unleapt unleapt' year year'

/-- The last second of a leap day, as it is seen five and a half hours to the east, and the one
behind it. -/
theorem leap_day_sorts_before_march :
    let offset : Offset := ⟨19800, by decide, by decide⟩
    let before : Instant := { second := 951848999 }
    let behind : Instant := { second := 951849000 }
    fileName before offset = "IMG_20000229_235959.jpg" ∧
    fileName behind offset = "IMG_20000301_000000.jpg" ∧
    fileName before offset ≠ fileName behind offset ∧
    bytes (fileName before offset) < bytes (fileName behind offset) := by
  intro offset before behind
  have taken : Instant.ofUnix? 951848999 900000000 = some before := by decide
  have taken' : Instant.ofUnix? 951849000 0 = some behind := by decide
  have year : HasPlainYear before offset := ⟨by decide, by decide⟩
  have year' : HasPlainYear behind offset := ⟨by decide, by decide⟩
  obtain ⟨names, order⟩ := names_follow_seconds offset taken (by decide) taken' (by decide)
  refine ⟨by decide +kernel, by decide +kernel, ?_, (order year year').mpr (by decide)⟩
  exact fun same => absurd (names.mp same) (by decide)

end

end PhotoCapture.Photo
