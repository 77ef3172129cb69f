/-!
# Dates and times

Seconds since the start of 1970 as dates and times of day, in the proleptic Gregorian calendar and
in UTC.
-/

namespace Multipass

/-- A second since the start of 1970. -/
abbrev Timestamp := Int

namespace Calendar

/-- A date and a time of day. -/
structure DateTime where
  year : Int
  month : Nat
  day : Nat
  hour : Nat
  minute : Nat
  second : Nat
  deriving DecidableEq, Repr

/-- The year, month, and day of a number of days since the start of 1970. Years are counted from
the first of March, so that a leap day ends its year, in eras of 400 years. -/
def civil (days : Int) : Int × Nat × Nat :=
  let z := days + 719468
  let era := z.fdiv 146097
  let dayOfEra := (z.fmod 146097).toNat
  let yearOfEra :=
    (dayOfEra - dayOfEra / 1460 + dayOfEra / 36524 - dayOfEra / 146096) / 365
  let dayOfYear := dayOfEra - (365 * yearOfEra + yearOfEra / 4 - yearOfEra / 100)
  let shifted := (5 * dayOfYear + 2) / 153
  let day := dayOfYear - (153 * shifted + 2) / 5 + 1
  let month := if shifted < 10 then shifted + 3 else shifted - 9
  let year := (yearOfEra : Int) + era * 400
  (if month ≤ 2 then year + 1 else year, month, day)

/-- The date and time of a timestamp. -/
def ofTimestamp (t : Timestamp) : DateTime :=
  let (year, month, day) := civil (t.fdiv 86400)
  let second := (t.fmod 86400).toNat
  ⟨year, month, day, second / 3600, second / 60 % 60, second % 60⟩

/-- The timestamps that have a date: the years from -262143 to 262142. -/
def inRange (t : Timestamp) : Bool :=
  -8334601228800 ≤ t && t ≤ 8210266876799

/-- A number in at least `width` digits. -/
def digits (width n : Nat) : String :=
  let s := toString n
  String.ofList (List.replicate (width - s.length) '0') ++ s

/-- A year in at least four digits, with a sign when it lies outside of the years 0 to 9999. -/
def yearText (year : Int) : String :=
  if year < 0 then "-" ++ digits 4 year.natAbs
  else if 9999 < year then "+" ++ digits 4 year.natAbs
  else digits 4 year.natAbs

/-- The date of a timestamp. -/
def dateText (d : DateTime) : String :=
  s!"{yearText d.year}-{digits 2 d.month}-{digits 2 d.day}"

/-- A timestamp to the second, or its number when it has no date. -/
def isoSecond (t : Timestamp) : String :=
  if inRange t then
    let d := ofTimestamp t
    s!"{dateText d}T{digits 2 d.hour}:{digits 2 d.minute}:{digits 2 d.second}Z"
  else toString t

/-- A timestamp to the minute, or its number when it has no date. -/
def isoMinute (t : Timestamp) : String :=
  if inRange t then
    let d := ofTimestamp t
    s!"{dateText d} {digits 2 d.hour}:{digits 2 d.minute}"
  else toString t

/-- A count with its unit, in the plural unless it is one. -/
def countOf (n : Int) (unit : String) : String :=
  if n = 1 then s!"{n} {unit} ago" else s!"{n} {unit}s ago"

/-- How long ago a timestamp was, in whole units up to 30 days, and its minute outside of that. -/
def relative (now t : Timestamp) : String :=
  let delta := now - t
  if delta < 0 then isoMinute t
  else if delta < 60 then "just now"
  else if delta < 3600 then countOf (delta / 60) "min"
  else if delta < 86400 then countOf (delta / 3600) "hour"
  else if delta < 86400 * 30 then countOf (delta / 86400) "day"
  else isoMinute t

end Calendar

end Multipass
