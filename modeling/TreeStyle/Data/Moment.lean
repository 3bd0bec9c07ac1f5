/-!
# Dates and times

A moment is a day of the calendar, or a time of day on such a day, perhaps with an
offset from universal time.  Its numbers are kept as they are stated; `fault?` says
which of them is out of range, the offset being judged first.

A moment has two texts.  Inside of another value it is written as a call with its
numbers, from the second on only as far as they are not zero.

Two times with offsets are the same if they are the same instant of universal time.
A time without an offset is no instant, and is never the same as one with an offset.

Main statements: `daysIn_le` (no month has more than 31 days) and `isSame_self`.
-/

namespace TreeStyle

set_option autoImplicit false

/-! ## The calendar and the clock -/

/-- A day of the calendar. -/
structure Date where
  year : Nat
  month : Nat
  day : Nat
  deriving DecidableEq, Repr

/-- A time of day, with an offset in minutes if one is given. -/
structure Clock where
  hour : Nat
  minute : Nat
  second : Nat
  microsecond : Nat
  offset : Option Int
  deriving DecidableEq, Repr

/-- A day, or a time on a day. -/
inductive Moment where
  | day (date : Date)
  | time (date : Date) (clock : Clock)
  deriving DecidableEq, Repr

/-- The number of days in a month. -/
def daysIn (year month : Nat) : Nat :=
  if month = 2 then
    if year % 4 = 0 ∧ (year % 100 ≠ 0 ∨ year % 400 = 0) then 29 else 28
  else if month = 4 ∨ month = 6 ∨ month = 9 ∨ month = 11 then 30
  else 31

/-- No month has more than 31 days. -/
theorem daysIn_le (year month : Nat) : daysIn year month ≤ 31 := by
  unfold daysIn
  split
  · split <;> omega
  · split <;> omega

/-! ## Numbers out of range -/

/-- Which number of a moment is out of range. -/
inductive MomentFault where
  | offset (minutes : Int)
  | year (number : Nat)
  | month
  | day
  | hour
  | minute
  | second
  deriving DecidableEq, Repr

/-- The first number of a day that is out of range. -/
def Date.fault? (date : Date) : Option MomentFault :=
  if date.year = 0 then some (.year date.year)
  else if date.month = 0 ∨ 12 < date.month then some .month
  else if date.day = 0 ∨ daysIn date.year date.month < date.day then some .day
  else none

/-- The fault of an offset of a day or more. -/
def offsetFault? (offset : Int) : Option MomentFault :=
  if offset.natAbs < 24 * 60 then none else some (.offset offset)

/-- The first number of a time of day that is out of range, the offset aside. -/
def Clock.fault? (clock : Clock) : Option MomentFault :=
  if 23 < clock.hour then some .hour
  else if 59 < clock.minute then some .minute
  else if 59 < clock.second then some .second
  else none

/-- The first number that is out of range: the offset before the day, and the day
before the time. -/
def Moment.fault? : Moment → Option MomentFault
  | day date => date.fault?
  | time date clock =>
    (clock.offset.bind offsetFault?).or (date.fault?.or clock.fault?)

/-! ## Texts -/

/-- A number with zeros before it up to the given width. -/
def padded (width number : Nat) : String :=
  let digits := toString number
  String.ofList (List.replicate (width - digits.length) '0') ++ digits

/-- The day with hyphens. -/
def Date.render (date : Date) : String :=
  padded 4 date.year ++ "-" ++ padded 2 date.month ++ "-" ++ padded 2 date.day

/-- An offset as a sign, hours and minutes. -/
def renderOffset (offset : Int) : String :=
  (if offset < 0 then "-" else "+") ++ padded 2 (offset.natAbs / 60) ++ ":" ++
    padded 2 (offset.natAbs % 60)

/-- The time with colons, the fraction of a second only if there is one. -/
def Clock.render (clock : Clock) : String :=
  padded 2 clock.hour ++ ":" ++ padded 2 clock.minute ++ ":" ++ padded 2 clock.second ++
    (if clock.microsecond = 0 then "" else "." ++ padded 6 clock.microsecond) ++
    (clock.offset.map renderOffset).getD ""

/-- The text of a moment. -/
def Moment.render : Moment → String
  | day date => date.render
  | time date clock => date.render ++ " " ++ clock.render

/-- A span of minutes as a call with its days and seconds, of which only the days may
be negative. -/
def spanCall (minutes : Int) : String :=
  let days := minutes / (24 * 60)
  let seconds := 60 * (minutes % (24 * 60))
  let parts :=
    (if days = 0 then [] else [s!"days={days}"]) ++
      (if seconds = 0 then [] else [s!"seconds={seconds}"])
  "datetime.timedelta(" ++ (if parts = [] then "0" else ", ".intercalate parts) ++ ")"

/-- An offset as a call; universal time has a name. -/
def zoneCall (offset : Int) : String :=
  if offset = 0 then "datetime.timezone.utc" else "datetime.timezone(" ++ spanCall offset ++ ")"

/-- The numbers of a day, as the arguments of a call. -/
def Date.numbers (date : Date) : List Nat := [date.year, date.month, date.day]

/-- The numbers of a time of day, without zeros from the second on. -/
def Clock.numbers (clock : Clock) : List Nat :=
  [clock.hour, clock.minute] ++
    (if clock.microsecond ≠ 0 then [clock.second, clock.microsecond]
    else if clock.second ≠ 0 then [clock.second]
    else [])

/-- The text of a moment inside of another value: a call with its numbers. -/
def Moment.renderInner : Moment → String
  | day date => "datetime.date(" ++ ", ".intercalate (date.numbers.map toString) ++ ")"
  | time date clock =>
    let numbers := (date.numbers ++ clock.numbers).map toString
    let zone := (clock.offset.map fun offset => "tzinfo=" ++ zoneCall offset).toList
    "datetime.datetime(" ++ ", ".intercalate (numbers ++ zone) ++ ")"

/-- The wording of a number out of range. -/
def MomentFault.message : MomentFault → String
  | offset minutes =>
    "offset must be a timedelta strictly between -timedelta(hours=24) and timedelta(hours=24), not "
      ++ spanCall minutes ++ "."
  | year number => s!"year {number} is out of range"
  | month => "month must be in 1..12"
  | day => "day is out of range for month"
  | hour => "hour must be in 0..23"
  | minute => "minute must be in 0..59"
  | second => "second must be in 0..59"

/-! ## The same moment -/

/-- The number of days before a day, from the first day of the first year on. -/
def Date.daysBefore (date : Date) : Nat :=
  let years := date.year - 1
  365 * years + years / 4 - years / 100 + years / 400 +
    (List.range (date.month - 1)).foldl (fun days month => days + daysIn date.year (month + 1)) 0 +
    (date.day - 1)

/-- The microseconds of a time of day since midnight. -/
def Clock.microseconds (clock : Clock) : Nat :=
  1000000 * (3600 * clock.hour + 60 * clock.minute + clock.second) + clock.microsecond

/-- The instant of universal time, in microseconds, that a time with an offset is. -/
def Moment.instant? : Moment → Option Int
  | day _ => none
  | time date clock =>
    clock.offset.map fun offset =>
      86400000000 * (date.daysBefore : Int) + clock.microseconds - 60000000 * offset

/-- Whether two moments are the same. -/
def Moment.isSame (moment other : Moment) : Bool :=
  match moment.instant?, other.instant? with
  | some instant, some second => instant == second
  | none, none => moment == other
  | _, _ => false

/-- A moment is the same as itself. -/
theorem Moment.isSame_self (moment : Moment) : moment.isSame moment = true := by
  unfold isSame
  split
  · next first second left right =>
    rw [left] at right
    simpa using right
  · simp
  · next first second =>
    exfalso
    cases instant : moment.instant? with
    | none => exact second instant instant
    | some value => exact first value value instant instant

end TreeStyle
