/-!
# Dates in response heads

The date of a response is written in UTC as `Mon, 02 Jan 2006 15:04:05 GMT`: the weekday and
month abbreviated, the day and time two digits each, the year at least four. The calendar is
the proleptic Gregorian one, counted from 1970-01-01, a Thursday. Integer division here rounds
towards negative infinity, so times before 1970 fall on the right day. The calendar is read
from a 64-bit clock, so a time beyond its reach wraps around.
-/

namespace StaticHttp

namespace Date

/-- The year, month (1 to 12) and day (1 to 31) of a day counted from 1970-01-01. -/
def civil (days : Int) : Int × Nat × Nat :=
  let z := days + 719468
  let era := z / 146097
  let doe := z - era * 146097
  let yoe := (doe - doe / 1460 + doe / 36524 - doe / 146096) / 365
  let y := yoe + era * 400
  let doy := doe - (365 * yoe + yoe / 4 - yoe / 100)
  let mp := (5 * doy + 2) / 153
  let d := doy - (153 * mp + 2) / 5 + 1
  let m := if mp < 10 then mp + 3 else mp - 9
  ((if m ≤ 2 then y + 1 else y), m.toNat, d.toNat)

/-- Weekday abbreviations from Sunday. -/
def weekdays : List String := ["Sun", "Mon", "Tue", "Wed", "Thu", "Fri", "Sat"]

/-- Month abbreviations from January. -/
def months : List String :=
  ["Jan", "Feb", "Mar", "Apr", "May", "Jun", "Jul", "Aug", "Sep", "Oct", "Nov", "Dec"]

/-- A number with at least `w` digits, zeros in front. -/
def padded (w : Nat) (n : Nat) : String :=
  let s := toString n
  String.ofList (List.replicate (w - s.length) '0') ++ s

/-- A year with at least four digits; a year before 1 has its sign in front. -/
def yearText (y : Int) : String :=
  if y < 0 then "-" ++ padded 4 y.natAbs else padded 4 y.toNat

/-- The seconds from the start of the clock the calendar is read from to 1970-01-01. That
clock counts seconds in 64 bits without sign from 1 January of the year -292277022399. -/
def clockOffset : Int := 9223372028715321600

/-- The time the calendar is read at for a time in seconds since 1970-01-01: the same time
when it lies on the clock, else the time it wraps around to. -/
def onClock (secs : Int) : Int := (secs + clockOffset) % 18446744073709551616 - clockOffset

/-- The date text of a time given in seconds since 1970-01-01 00:00:00 UTC. -/
def httpDate (secs : Int) : String :=
  let secs := onClock secs
  let days := secs / 86400
  let rem := (secs % 86400).toNat
  let (y, m, d) := civil days
  let wd := ((days + 4) % 7).toNat
  weekdays.getD wd "" ++ ", " ++ padded 2 d ++ " " ++ months.getD (m - 1) "" ++ " " ++
    yearText y ++ " " ++ padded 2 (rem / 3600) ++ ":" ++ padded 2 (rem / 60 % 60) ++ ":" ++
    padded 2 (rem % 60) ++ " GMT"

end Date

end StaticHttp
