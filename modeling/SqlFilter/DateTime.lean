/-!
Days of the calendar, times of day, and points of time without a zone, with their two written
forms: date and time with a blank between them for SQL, and the ISO form with `T` and the fraction
of the second. A time can be in a leap second after any second, but a clock that shows second 60 is
read as the one after second 59.
-/
namespace SqlFilter

def isLeapYear (year : Int) : Bool := year % 4 == 0 && (year % 100 != 0 || year % 400 == 0)

def daysInMonth (year : Int) (month : Nat) : Nat :=
  match month with
  | 2 => if isLeapYear year then 29 else 28
  | 4 | 6 | 9 | 11 => 30
  | _ => 31

def zeroPadded (width n : Nat) : List Char :=
  let ds := Nat.toDigits 10 n
  List.replicate (width - ds.length) '0' ++ ds

def clockChars (hour minute second : Nat) : List Char :=
  zeroPadded 2 hour ++ ':' :: zeroPadded 2 minute ++ ':' :: zeroPadded 2 second

namespace Date

def leastYear : Int := -262143
def greatestYear : Int := 262142

def isDay (year : Int) (month day : Nat) : Bool :=
  decide (leastYear ≤ year ∧ year ≤ greatestYear) && decide (1 ≤ month ∧ month ≤ 12) &&
    decide (1 ≤ day ∧ day ≤ daysInMonth year month)

end Date

structure Date where
  year : Int
  month : Nat
  day : Nat
  valid : Date.isDay year month day := by decide
  deriving DecidableEq, Repr

namespace Date

def of? (year : Int) (month day : Nat) : Option Date :=
  if h : isDay year month day then some ⟨year, month, day, h⟩ else none

theorem of?_fields (d : Date) : of? d.year d.month d.day = some d := by
  simp [of?, d.valid]

/-- Four digits, and a sign for a year that these cannot express. -/
def yearChars (year : Int) : List Char :=
  if 0 ≤ year ∧ year ≤ 9999 then zeroPadded 4 year.natAbs
  else (if year < 0 then '-' else '+') :: zeroPadded 4 year.natAbs

def chars (d : Date) : List Char :=
  yearChars d.year ++ '-' :: zeroPadded 2 d.month ++ '-' :: zeroPadded 2 d.day

end Date

/-- Whether there is a time. The nanoseconds of a leap second count on from the second before it. -/
def Time.isTime (hour minute second nano : Nat) : Bool :=
  decide (hour < 24) && decide (minute < 60) && decide (second < 60) && decide (nano < 2000000000)

structure Time where
  hour : Nat
  minute : Nat
  second : Nat
  nano : Nat
  valid : Time.isTime hour minute second nano := by decide
  deriving DecidableEq, Repr

namespace Time

def of? (hour minute second nano : Nat) : Option Time :=
  if h : isTime hour minute second nano then some ⟨hour, minute, second, nano, h⟩ else none

theorem of?_fields (t : Time) : of? t.hour t.minute t.second t.nano = some t := by
  simp [of?, t.valid]

/-- The second that a clock shows, which is one more in a leap second. -/
def shownSecond (t : Time) : Nat := t.second + t.nano / 1000000000

def shownNano (t : Time) : Nat := t.nano % 1000000000

/-- The time that a clock shows. Second 60 is the leap second after second 59. -/
def ofClock? (hour minute second nano : Nat) : Option Time :=
  if 1000000000 ≤ nano then none
  else if second = 60 then of? hour minute 59 (1000000000 + nano)
  else of? hour minute second nano

/-- Whether a leap second, if the time is in one, ends its minute. -/
def isRegular (t : Time) : Bool := decide (t.nano < 1000000000) || t.second == 59

def chars (t : Time) : List Char := clockChars t.hour t.minute t.shownSecond

/-- Three, six or nine digits for the fraction of the second; a whole second has none. -/
def fractionChars (t : Time) : List Char :=
  if t.shownNano = 0 then []
  else if t.shownNano % 1000000 = 0 then '.' :: zeroPadded 3 (t.shownNano / 1000000)
  else if t.shownNano % 1000 = 0 then '.' :: zeroPadded 6 (t.shownNano / 1000)
  else '.' :: zeroPadded 9 t.shownNano

end Time

structure DateTime where
  date : Date
  time : Time
  deriving DecidableEq, Repr

namespace DateTime

def text (t : DateTime) : String := .ofList (t.date.chars ++ ' ' :: t.time.chars)

def isoText (t : DateTime) : String :=
  .ofList (t.date.chars ++ 'T' :: t.time.chars ++ t.time.fractionChars)

example :
    isoText ⟨⟨2024, 2, 29, rfl⟩, ⟨23, 59, 59, 1500000000, rfl⟩⟩ = "2024-02-29T23:59:60.500" := by
  decide
example : text ⟨⟨12024, 1, 2, rfl⟩, ⟨3, 4, 5, 0, rfl⟩⟩ = "+12024-01-02 03:04:05" := by decide
example : Date.of? 2023 2 29 = none := by decide

end DateTime

end SqlFilter
