import PhotoCapture.Calendar.Instant

namespace PhotoCapture.Calendar

namespace Date

/-- The days from the first of March of the year zero to the first of March of another year. -/
def yearStart (year : Int) : Int := 365 * year + year / 4 - year / 100 + year / 400

def ofMarch (year dayOfYear : Int) : Date :=
  let month := (5 * dayOfYear + 2) / 153
  let day := dayOfYear - (153 * month + 2) / 5 + 1
  if month < 10 then ⟨year, month + 3, day⟩ else ⟨year + 1, month - 9, day⟩

/-- The place of a day in its era: the century, four years of that, one of these, and the day of
that year. The last of four years has a leap day, but not at the end of a century, unless that is
the last one. -/
structure Place (day century four single dayOfYear : Int) : Prop where
  sum : day = 36524 * century + 1461 * four + 365 * single + dayOfYear
  inEra : 0 ≤ century ∧ century < 4
  inCentury : 0 ≤ four ∧ four < 25
  inFour : 0 ≤ single ∧ single < 4
  inYear : 0 ≤ dayOfYear ∧
    (dayOfYear < 365 ∨ dayOfYear = 365 ∧ single = 3 ∧ (four < 24 ∨ century = 3))

theorem exists_place {day : Int} (low : 0 ≤ day) (high : day < eraDays) :
    ∃ century four single dayOfYear, Place day century four single dayOfYear := by
  unfold eraDays at high
  let century := min (day / 36524) 3
  let inCentury := day - 36524 * century
  let four := min (inCentury / 1461) 24
  let inFour := inCentury - 1461 * four
  let single := min (inFour / 365) 3
  refine ⟨century, four, single, inFour - 365 * single, ?_, ?_, ?_, ?_, ?_⟩ <;> omega

section

variable {day days century four single dayOfYear : Int}

theorem Place.yearOfEra (place : Place day century four single dayOfYear) :
    (day - day / 1460 + day / 36524 - day / 146096) / 365 = 100 * century + 4 * four + single := by
  obtain ⟨sum, inEra, inCentury, inFour, inYear⟩ := place
  have centuries : day / 36524 - day / 146096 = century := by
    rcases (by omega : day < 146096 ∨ day = 146096) with inner | rfl
    · have : day / 146096 = 0 := by omega
      have : 1461 * four + 365 * single + dayOfYear < 36524 := by omega
      omega
    · omega
  -- A division by 1460 runs ahead of the leap days, but never by more than one of them.
  have fours : day / 1460 = 25 * century + four ∧ dayOfYear < 365 ∨
      day / 1460 = 25 * century + four + 1 ∧ 0 < dayOfYear := by omega
  omega

theorem Place.yearStart (place : Place day century four single dayOfYear) :
    Date.yearStart (100 * century + 4 * four + single) + dayOfYear = day := by
  obtain ⟨sum, inEra, inCentury, inFour, inYear⟩ := place
  unfold Date.yearStart
  omega

theorem Place.lt_yearStart (place : Place day century four single dayOfYear) :
    day < Date.yearStart (100 * century + 4 * four + single + 1) := by
  obtain ⟨sum, inEra, inCentury, inFour, inYear⟩ := place
  unfold Date.yearStart
  omega

theorem Place.ofDays (place : Place ((days + epoch) % eraDays) century four single dayOfYear) :
    ofDays days =
      ofMarch (100 * century + 4 * four + single + 400 * ((days + epoch) / eraDays)) dayOfYear := by
  have start : 365 * (100 * century + 4 * four + single) +
      (100 * century + 4 * four + single) / 4 - (100 * century + 4 * four + single) / 100 =
        Date.yearStart (100 * century + 4 * four + single) := by
    obtain ⟨-, inEra, inCentury, inFour, -⟩ := place
    unfold Date.yearStart
    omega
  have inYear : (days + epoch) % eraDays -
      Date.yearStart (100 * century + 4 * four + single) = dayOfYear := by
    rw [← place.yearStart]
    omega
  simp only [Date.ofDays, place.yearOfEra, start, inYear]
  rw [ofMarch, Int.add_right_comm]

end

section

variable {year other day days later : Int}

theorem yearStart_le_yearStart (h : year ≤ other) : yearStart year ≤ yearStart other := by
  unfold yearStart
  omega

theorem yearStart_era (year era : Int) :
    yearStart (year + 400 * era) = yearStart year + eraDays * era := by
  unfold yearStart eraDays
  omega

/-- Every day lies in a year that begins in March. -/
theorem exists_march (days : Int) : ∃ year day,
    days + epoch = yearStart year + day ∧ 0 ≤ day ∧ day ≤ 365 ∧
      days + epoch < yearStart (year + 1) ∧ ofDays days = ofMarch year day := by
  have span : (0 : Int) < eraDays := by decide
  obtain ⟨century, four, single, day, place⟩ :=
    exists_place (Int.emod_nonneg (days + epoch) (Int.ne_of_gt span))
      (Int.emod_lt_of_pos (days + epoch) span)
  have split := Int.mul_ediv_add_emod (days + epoch) eraDays
  have start := place.yearStart
  have next := place.lt_yearStart
  have bounds := place.inYear
  refine ⟨_, day, ?_, bounds.1, by omega, ?_, place.ofDays⟩
  · rw [yearStart_era]
    omega
  · rw [Int.add_right_comm, yearStart_era]
    omega

theorem ofMarch_eq (year day : Int) :
    12 * (ofMarch year day).year + (ofMarch year day).month =
        12 * year + (5 * day + 2) / 153 + 3 ∧
      (ofMarch year day).day = day - (153 * ((5 * day + 2) / 153) + 2) / 5 + 1 := by
  simp only [ofMarch]
  split <;> exact ⟨by simp only; omega, rfl⟩

theorem ofMarch_range (year : Int) (low : 0 ≤ day) (high : day ≤ 365) :
    1 ≤ (ofMarch year day).month ∧ (ofMarch year day).month ≤ 12 ∧
      1 ≤ (ofMarch year day).day ∧ (ofMarch year day).day ≤ 31 := by
  simp only [ofMarch]
  split <;> simp only <;> omega

theorem ofDays_range (days : Int) :
    1 ≤ (ofDays days).month ∧ (ofDays days).month ≤ 12 ∧
      1 ≤ (ofDays days).day ∧ (ofDays days).day ≤ 31 := by
  obtain ⟨year, day, -, low, high, -, date⟩ := exists_march days
  rw [date]
  exact ofMarch_range year low high

def Precedes (date other : Date) : Prop :=
  date.year < other.year ∨ date.year = other.year ∧
    (date.month < other.month ∨ date.month = other.month ∧ date.day < other.day)

theorem ofDays_precedes (h : days < later) : (ofDays days).Precedes (ofDays later) := by
  obtain ⟨year, day, split, low, high, next, date⟩ := exists_march days
  obtain ⟨year', day', split', low', high', next', date'⟩ := exists_march later
  have ordered : year < year' ∨ year = year' ∧ day < day' := by
    rcases Int.lt_trichotomy year year' with earlier | rfl | swapped
    · exact Or.inl earlier
    · exact Or.inr ⟨rfl, by omega⟩
    · have := yearStart_le_yearStart (Int.add_one_le_of_lt swapped)
      omega
  obtain ⟨months, inMonth⟩ := ofMarch_eq year day
  obtain ⟨months', inMonth'⟩ := ofMarch_eq year' day'
  have range := ofMarch_range year low high
  have range' := ofMarch_range year' low' high'
  rw [date, date', Precedes]
  omega

end

end Date

namespace Clock

structure InRange (clock : Clock) : Prop where
  month : 1 ≤ clock.date.month ∧ clock.date.month ≤ 12
  day : 1 ≤ clock.date.day ∧ clock.date.day ≤ 31
  hour : 0 ≤ clock.hour ∧ clock.hour < 24
  minute : 0 ≤ clock.minute ∧ clock.minute < 60
  second : 0 ≤ clock.second ∧ clock.second ≤ 60

def Precedes (clock other : Clock) : Prop :=
  clock.date.Precedes other.date ∨ clock.date = other.date ∧
    (clock.hour < other.hour ∨ clock.hour = other.hour ∧
      (clock.minute < other.minute ∨ clock.minute = other.minute ∧ clock.second < other.second))

theorem Precedes.ne {clock other : Clock} (h : clock.Precedes other) : clock ≠ other := by
  rintro rfl
  simp [Precedes, Date.Precedes] at h

end Clock

namespace Instant

variable {instant later : Instant}

theorem clock_inRange (instant : Instant) (offset : Offset) : (instant.clock offset).InRange := by
  obtain ⟨month, month', day, day'⟩ := Date.ofDays_range ((instant.second + offset.val) / 86400)
  have leap : (0 : Int) ≤ (if instant.leap then 1 else 0) ∧
      (if instant.leap then 1 else 0) ≤ (1 : Int) := by split <;> decide
  refine ⟨⟨month, month'⟩, ⟨day, day'⟩, ?_, ?_, ?_⟩ <;> simp only [clock] <;> omega

/-- Behind a later second the clock is later, unless a leap second is shown. -/
theorem clock_precedes (offset : Offset) (plain : instant.leap = false)
    (plain' : later.leap = false) (h : instant.second < later.second) :
    (instant.clock offset).Precedes (later.clock offset) := by
  unfold Clock.Precedes
  simp only [clock, plain, plain']
  have days : (instant.second + offset.val) / 86400 < (later.second + offset.val) / 86400 ∨
      (instant.second + offset.val) / 86400 = (later.second + offset.val) / 86400 := by omega
  rcases days with earlier | same
  · exact Or.inl (Date.ofDays_precedes earlier)
  · refine Or.inr ⟨by rw [same], ?_⟩
    simp only [Bool.false_eq_true, if_false]
    omega

end Instant

end PhotoCapture.Calendar
