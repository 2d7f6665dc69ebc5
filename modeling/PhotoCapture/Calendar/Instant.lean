import PhotoCapture.Calendar.Date

namespace PhotoCapture.Calendar

/-- A second, counted from the start of 1970, or the leap second behind it. -/
structure Instant where
  second : Int
  leap : Bool := false
deriving DecidableEq

/-- The distance of a local clock to the east, in seconds. -/
abbrev Offset := { s : Int // -86400 < s ∧ s < 86400 }

def Offset.ofSeconds? (s : Int) : Option Offset :=
  if h : -86400 < s ∧ s < 86400 then some ⟨s, h⟩ else none

def Offset.zero : Offset := ⟨0, by decide, by decide⟩

structure Clock where
  date : Date
  hour : Int
  minute : Int
  second : Int
deriving DecidableEq

/-- The years that can be written. -/
def inRange (year : Int) : Bool := decide (-262143 ≤ year ∧ year ≤ 262142)

namespace Instant

/-- The instant at a count of seconds with so many nanoseconds more. A further second of
nanoseconds makes a leap second, and only at the end of a minute. -/
def ofUnix? (seconds : Int) (nanos : Nat) : Option Instant :=
  if inRange (Date.ofDays (seconds / 86400)).year ∧
      (nanos < 1000000000 ∨ nanos < 2000000000 ∧ seconds % 60 = 59) then
    some ⟨seconds, decide (1000000000 ≤ nanos)⟩
  else none

/-- The clock of an instant at an offset. A leap second is shown as one more than the second
before it. -/
def clock (instant : Instant) (offset : Offset) : Clock :=
  let here := instant.second + offset.val
  let inDay := here % 86400
  ⟨Date.ofDays (here / 86400), inDay / 3600, inDay / 60 % 60,
    inDay % 60 + if instant.leap then 1 else 0⟩

end Instant

end PhotoCapture.Calendar
