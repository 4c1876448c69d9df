import Mathlib

/-! # The proleptic Gregorian calendar -/

namespace HomeTunnel.Calendar

/-- Days from 1970-01-01 to a date. -/
def sysDays (year month day : Int) : Int :=
  let year := if month ≤ 2 then year - 1 else year
  let era := year / 400
  let yearOfEra := year % 400
  let dayOfYear := (153 * (if month > 2 then month - 3 else month + 9) + 2) / 5 + day - 1
  let dayOfEra := yearOfEra * 365 + yearOfEra / 4 - yearOfEra / 100 + dayOfYear
  era * 146097 + dayOfEra - 719468

def isLeap (year : Int) : Bool := year % 4 == 0 && (year % 100 != 0 || year % 400 == 0)

def lastDay (year month : Int) : Int :=
  if month = 2 then if isLeap year then 29 else 28
  else if month = 4 ∨ month = 6 ∨ month = 9 ∨ month = 11 then 30
  else 31

end HomeTunnel.Calendar
