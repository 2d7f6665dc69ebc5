import PhotoCapture.Calendar.Instant
import PhotoCapture.Text.Numeral

namespace PhotoCapture.Photo

def twoDigits (n : Int) : List Char := Numeral.padded 2 n.toNat

/-- A year in at least four digits, with a sign in front where four digits without one do not
suffice. -/
def yearText (year : Int) : List Char :=
  let sign := if year < 0 then ['-'] else if 9999 < year then ['+'] else []
  sign ++ Numeral.padded 4 year.natAbs

def stamp (clock : Calendar.Clock) : List Char :=
  yearText clock.date.year ++ twoDigits clock.date.month ++ twoDigits clock.date.day ++
    '_' :: twoDigits clock.hour ++ twoDigits clock.minute ++ twoDigits clock.second

def fileName (instant : Calendar.Instant) (offset : Calendar.Offset) : String :=
  String.ofList ("IMG_".toList ++ stamp (instant.clock offset) ++ ".jpg".toList)

end PhotoCapture.Photo
