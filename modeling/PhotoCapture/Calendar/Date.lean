namespace PhotoCapture.Calendar

/-- A day of the calendar; there is a year zero. -/
structure Date where
  year : Int
  month : Int
  day : Int
deriving DecidableEq

namespace Date

def eraDays : Int := 146097

/-- The days from the first of March of the year zero to the first of January 1970. -/
def epoch : Int := 719468

/-- The date that is so many days after the first of January 1970, found by years that begin in
March, so that a leap day is the last day of its year. -/
def ofDays (days : Int) : Date :=
  let era := (days + epoch) / eraDays
  let dayOfEra := (days + epoch) % eraDays
  let yearOfEra := (dayOfEra - dayOfEra / 1460 + dayOfEra / 36524 - dayOfEra / 146096) / 365
  let dayOfYear := dayOfEra - (365 * yearOfEra + yearOfEra / 4 - yearOfEra / 100)
  let month := (5 * dayOfYear + 2) / 153
  let day := dayOfYear - (153 * month + 2) / 5 + 1
  let year := yearOfEra + 400 * era
  if month < 10 then ⟨year, month + 3, day⟩ else ⟨year + 1, month - 9, day⟩

end Date

end PhotoCapture.Calendar
