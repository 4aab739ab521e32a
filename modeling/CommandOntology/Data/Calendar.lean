set_option autoImplicit false

namespace CommandOntology

def paddedNumber (width n : Nat) : String :=
  let digits := toString n
  String.ofList (List.replicate (width - digits.length) '0') ++ digits

structure Date where
  year : Nat
  month : Nat
  day : Nat
  deriving DecidableEq, Repr, Inhabited

/-- A time on a day, to the millionth of a second. The zone is the distance in minutes from the time of
the meridian. -/
structure Moment where
  date : Date
  hour : Nat
  minute : Nat
  second : Nat
  microsecond : Nat
  zone : Option Int
  deriving DecidableEq, Repr, Inhabited

def isLeapYear (year : Nat) : Bool :=
  year % 4 == 0 && (year % 100 != 0 || year % 400 == 0)

def daysInMonth (year month : Nat) : Nat :=
  if month = 2 then if isLeapYear year then 29 else 28
  else if month = 4 ∨ month = 6 ∨ month = 9 ∨ month = 11 then 30
  else 31

namespace Date

def ofParts (year month day : Nat) : Except String Date :=
  if year = 0 then .error ("year " ++ toString year ++ " is out of range")
  else if month = 0 ∨ 12 < month then .error "month must be in 1..12"
  else if day = 0 ∨ daysInMonth year month < day then .error "day is out of range for month"
  else .ok ⟨year, month, day⟩

def text (d : Date) : String :=
  paddedNumber 4 d.year ++ "-" ++ paddedNumber 2 d.month ++ "-" ++ paddedNumber 2 d.day

def call (d : Date) : String :=
  "datetime.date(" ++ ", ".intercalate ([d.year, d.month, d.day].map toString) ++ ")"

end Date

namespace Moment

/-- A distance of minutes as a call that makes it. A negative one counts forward from the day before. -/
def spanCall (minutes : Int) : String :=
  let days := minutes.fdiv 1440
  let seconds := minutes.fmod 1440 * 60
  let dayPart := if days = 0 then [] else ["days=" ++ toString days]
  let secondPart := if seconds = 0 then [] else ["seconds=" ++ toString seconds]
  let parts := if minutes = 0 then ["0"] else dayPart ++ secondPart
  "datetime.timedelta(" ++ ", ".intercalate parts ++ ")"

def ofParts (date : Date) (hour minute second microsecond : Nat) (zone : Option Int) :
    Except String Moment :=
  if zone.any fun z => z ≤ -1440 || 1440 ≤ z then
    .error ("offset must be a timedelta strictly between -timedelta(hours=24) and "
      ++ "timedelta(hours=24), not " ++ spanCall (zone.getD 0) ++ ".")
  else if 23 < hour then .error "hour must be in 0..23"
  else if 59 < minute then .error "minute must be in 0..59"
  else if 59 < second then .error "second must be in 0..59"
  else .ok ⟨date, hour, minute, second, microsecond, zone⟩

def zoneText (minutes : Int) : String :=
  let n := minutes.natAbs
  (if minutes < 0 then "-" else "+") ++ paddedNumber 2 (n / 60) ++ ":" ++ paddedNumber 2 (n % 60)

def text (m : Moment) : String :=
  m.date.text ++ " " ++ paddedNumber 2 m.hour ++ ":" ++ paddedNumber 2 m.minute ++ ":"
    ++ paddedNumber 2 m.second
    ++ (if m.microsecond = 0 then "" else "." ++ paddedNumber 6 m.microsecond)
    ++ (m.zone.map zoneText).getD ""

def call (m : Moment) : String :=
  let seconds :=
    if m.microsecond ≠ 0 then [m.second, m.microsecond]
    else if m.second ≠ 0 then [m.second]
    else []
  let zone :=
    match m.zone with
    | none => []
    | some z =>
      ["tzinfo=" ++ if z = 0 then "datetime.timezone.utc" else "datetime.timezone(" ++ spanCall z ++ ")"]
  let parts := [m.date.year, m.date.month, m.date.day, m.hour, m.minute] ++ seconds
  "datetime.datetime(" ++ ", ".intercalate (parts.map toString ++ zone) ++ ")"

end Moment

end CommandOntology
