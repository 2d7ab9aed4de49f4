/-!
# Moments

Dates, times of day and both together, and the two ways in which they are written: a moment alone in
the form of the calendar standard (`Moment.text`), and one inside another value as the call that
makes it from its numbers (`Moment.quotedText`).
-/

namespace JackSyntax

/-- A number in at least so many digits. -/
def padded (width n : Nat) : String :=
  let ds := toString n
  String.ofList (List.replicate (width - ds.length) '0') ++ ds

/-- A name applied to arguments. -/
def callText (name : String) (arguments : List String) : String :=
  name ++ "(" ++ ", ".intercalate arguments ++ ")"

/-- A day. -/
structure Date where
  /-- The year. -/
  year : Nat
  /-- The month, from one. -/
  month : Nat
  /-- The day of the month, from one. -/
  day : Nat
deriving DecidableEq, Repr

namespace Date

/-- Whether the year has a leap day. -/
def isLeap (year : Nat) : Bool :=
  year % 4 == 0 && (year % 100 != 0 || year % 400 == 0)

/-- The days of a month. -/
def daysOfMonth (year month : Nat) : Nat :=
  if month = 2 then if isLeap year then 29 else 28
  else if month = 4 ∨ month = 6 ∨ month = 9 ∨ month = 11 then 30
  else 31

/-- Whether the calendar has the day. It starts with the year one. -/
def exists? (d : Date) : Bool :=
  d.year != 0 && d.day ≤ daysOfMonth d.year d.month

/-- The date with dashes. -/
def text (d : Date) : String :=
  padded 4 d.year ++ "-" ++ padded 2 d.month ++ "-" ++ padded 2 d.day

/-- The numbers of the date. -/
def arguments (d : Date) : List String :=
  [toString d.year, toString d.month, toString d.day]

end Date

/-- A time of day. -/
structure TimeOfDay where
  /-- The hour. -/
  hour : Nat
  /-- The minute. -/
  minute : Nat
  /-- The second. -/
  second : Nat
  /-- The millionths of a second. -/
  micros : Nat
deriving DecidableEq, Repr

namespace TimeOfDay

/-- The time with colons, and with six decimals of the second unless they are all zero. -/
def text (t : TimeOfDay) : String :=
  padded 2 t.hour ++ ":" ++ padded 2 t.minute ++ ":" ++ padded 2 t.second ++
    if t.micros = 0 then "" else "." ++ padded 6 t.micros

/-- The numbers of the time, without zeros at the end; the hour and the minute are always there. -/
def arguments (t : TimeOfDay) : List String :=
  let fine :=
    if t.micros ≠ 0 then [t.second, t.micros] else if t.second ≠ 0 then [t.second] else []
  (t.hour :: t.minute :: fine).map toString

end TimeOfDay

/-- By how many minutes a time is ahead of universal time. -/
structure UtcOffset where
  /-- The minutes. -/
  minutes : Int
deriving DecidableEq, Repr

namespace UtcOffset

/-- The offset with its sign and a colon. -/
def text (o : UtcOffset) : String :=
  let n := o.minutes.natAbs
  (if o.minutes < 0 then "-" else "+") ++ padded 2 (n / 60) ++ ":" ++ padded 2 (n % 60)

/-- The offset as part of another value. One that is behind is written as a day less and the seconds
that this is too much. -/
def quotedText (o : UtcOffset) : String :=
  if o.minutes = 0 then "datetime.timezone.utc"
  else
    let days := if o.minutes < 0 then ["days=-1"] else []
    let seconds := "seconds=" ++ toString (60 * o.minutes % 86400)
    callText "datetime.timezone" [callText "datetime.timedelta" (days ++ [seconds])]

end UtcOffset

/-- A point in time, or a part of one. -/
inductive Moment where
  /-- A day. -/
  | date (d : Date)
  /-- A time on any day. -/
  | time (t : TimeOfDay)
  /-- A time on a day, perhaps with its offset. -/
  | full (d : Date) (t : TimeOfDay) (offset : Option UtcOffset)
deriving DecidableEq, Repr

namespace Moment

/-- Whether the calendar has the moment. -/
def exists? : Moment → Bool
  | date d | full d _ _ => d.exists?
  | time _ => true

/-- The moment in the form of the calendar standard, with a space before the time. -/
def text : Moment → String
  | date d => d.text
  | time t => t.text
  | full d t offset => d.text ++ " " ++ t.text ++ (offset.map UtcOffset.text).getD ""

/-- The moment as part of another value. -/
def quotedText : Moment → String
  | date d => callText "datetime.date" d.arguments
  | time t => callText "datetime.time" t.arguments
  | full d t offset =>
    let zone := offset.toList.map fun o ↦ "tzinfo=" ++ o.quotedText
    callText "datetime.datetime" (d.arguments ++ t.arguments ++ zone)

end Moment

end JackSyntax
