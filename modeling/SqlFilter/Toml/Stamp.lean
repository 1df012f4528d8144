import SqlFilter.DateTime.Reading

/-!
Dates and times of TOML texts, their text, and how they are read: as values of their own, or from
a text that is nothing else. The latter is read less strictly.
-/
namespace SqlFilter.Toml

inductive Offset
  | zulu
  | minutes (n : Int)
  deriving DecidableEq, Repr

structure Clock where
  hour : Nat
  minute : Nat
  second : Nat
  nano : Nat
  deriving DecidableEq, Repr

/-- The time that a clock shows. Hour 24 is none. -/
def Clock.time? (c : Clock) : Option Time := Time.ofClock? c.hour c.minute c.second c.nano

/-- A date, a time, or both; behind a date there may be an offset. -/
structure Stamp where
  date : Option Date
  clock : Option Clock
  offset : Option Offset
  deriving DecidableEq, Repr

def fractionChars (nano : Nat) : List Char :=
  let digits := (zeroPadded 9 nano).reverse.dropWhile (· == '0')
  if digits.isEmpty then [] else '.' :: digits.reverse

def Clock.chars (c : Clock) : List Char :=
  clockChars c.hour c.minute c.second ++ fractionChars c.nano

def Offset.chars : Offset → List Char
  | .zulu => ['Z']
  | .minutes n =>
    (if n < 0 then '-' else '+') :: zeroPadded 2 (n.natAbs / 60) ++ ':' ::
      zeroPadded 2 (n.natAbs % 60)

def Stamp.text (s : Stamp) : String :=
  .ofList <|
    (s.date.map Date.chars).getD [] ++ (if s.date.isSome ∧ s.clock.isSome then ['T'] else []) ++
      (s.clock.map Clock.chars).getD [] ++ (s.offset.map Offset.chars).getD []

/-- How a date-time stands in a text: as a value of its own, or as the whole of a string. -/
inductive StampForm
  | bare
  | quoted
  deriving DecidableEq, Repr

namespace StampForm

def greatestHour : StampForm → Nat
  | .bare => 23
  | .quoted => 24

def isOffset (form : StampForm) (hours minutes : Nat) : Bool :=
  match form with
  | .bare => hours ≤ 23 && minutes ≤ 59
  | .quoted => 60 * hours + minutes ≤ 1440

end StampForm

def takeFixed (width : Nat) (cs : List Char) : Option (Nat × List Char) :=
  let ds := cs.take width
  if ds.length = width ∧ ds.all Char.isDigit then some (Text.digitsValue ds, cs.drop width)
  else none

def takeChar (c : Char) : List Char → Option (List Char)
  | d :: cs => if c = d then some cs else none
  | [] => none

def optionally {α : Type} (take : List Char → Option (α × List Char)) (cs : List Char) :
    Option α × List Char :=
  match take cs with
  | some (x, rest) => (some x, rest)
  | none => (none, cs)

def takeDate (cs : List Char) : Option (Date × List Char) := do
  let (year, cs) ← takeFixed 4 cs
  let (month, cs) ← takeFixed 2 (← takeChar '-' cs)
  let (day, cs) ← takeFixed 2 (← takeChar '-' cs)
  some (← Date.of? year month day, cs)

def takeClock (form : StampForm) (cs : List Char) : Option (Clock × List Char) := do
  let (hour, cs) ← takeFixed 2 cs
  let (minute, cs) ← takeFixed 2 (← takeChar ':' cs)
  let (second, cs) ← takeFixed 2 (← takeChar ':' cs)
  let (nano, cs) := (DateTime.takeFraction cs).getD (0, cs)
  if hour ≤ form.greatestHour ∧ minute ≤ 59 ∧ second ≤ 60 then
    some (⟨hour, minute, second, nano⟩, cs)
  else none

def takeOffset (form : StampForm) : List Char → Option (Offset × List Char)
  | c :: cs =>
    if c == 'Z' || c == 'z' then some (.zulu, cs)
    else if c == '+' || c == '-' then do
      let (hours, cs) ← takeFixed 2 cs
      let (minutes, cs) ← takeFixed 2 (← takeChar ':' cs)
      let n : Int := 60 * hours + minutes
      if form.isOffset hours minutes then some (.minutes (if c == '-' then -n else n), cs) else none
    else none
  | [] => none

/-- The time after a date, behind `T` or a blank. -/
def takeClockOfDate (form : StampForm) : List Char → Option (Clock × List Char)
  | c :: cs => if c == 'T' || c == 't' || c == ' ' then takeClock form cs else none
  | [] => none

/--
A date with or without a time, or a time alone. Only in a string an offset may follow a date
without a time.
-/
def takeStamp (form : StampForm) (cs : List Char) : Option (Stamp × List Char) :=
  match takeDate cs with
  | some (date, cs) =>
    let (clock, cs) := optionally (takeClockOfDate form) cs
    let (offset, cs) :=
      if clock.isSome ∨ form = .quoted then optionally (takeOffset form) cs else (none, cs)
    some (⟨date, clock, offset⟩, cs)
  | none => (takeClock form cs).map fun r => (⟨none, r.1, none⟩, r.2)

def Stamp.ofText? (s : String) : Option Stamp :=
  match takeStamp .quoted s.toList with
  | some (stamp, []) => some stamp
  | _ => none

example : (Stamp.ofText? "2024-01-02t24:00:00.50+00:99").map Stamp.text =
    some "2024-01-02T24:00:00.5+01:39" := by
  decide
example : (Stamp.ofText? "2024-01-02Z").map Stamp.text = some "2024-01-02Z" := by decide
example : Stamp.ofText? "12:30:00Z" = none := by decide

end SqlFilter.Toml
