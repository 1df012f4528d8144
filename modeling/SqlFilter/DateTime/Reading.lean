import SqlFilter.DateTime
import SqlFilter.Text.Blank
import SqlFilter.Text.Digits

/-!
Reading the ISO form of a point of time. Each number may have fewer digits than are written and
blanks on both sides; a year of more than four digits needs a sign; digits of the fraction after
the ninth are dropped.
-/
namespace SqlFilter.DateTime

/-- The largest value that a number may reach before it is out of range. -/
def greatestNumber : Nat := 9223372036854775807

/-- Up to `width` digits after blanks, at least one of them. -/
def takeNumber (width : Nat) (cs : List Char) : Option (Nat × List Char) :=
  let cs := cs.dropWhile Text.isBlank
  let ds := (cs.take width).takeWhile Char.isDigit
  if ds.isEmpty then none
  else some (Text.digitsValue ds, cs.drop ds.length)

def takeLongNumber (cs : List Char) : Option (Nat × List Char) :=
  let ds := cs.takeWhile Char.isDigit
  let n := Text.digitsValue ds
  if ds.isEmpty || decide (greatestNumber < n) then none else some (n, cs.drop ds.length)

/-- A year: four digits at most, or a sign and any number of digits. -/
def takeYear (cs : List Char) : Option (Int × List Char) :=
  match cs.dropWhile Text.isBlank with
  | '-' :: rest => (takeLongNumber rest).map fun r => (-(r.1 : Int), r.2)
  | '+' :: rest => (takeLongNumber rest).map fun r => ((r.1 : Int), r.2)
  | rest => (takeNumber 4 rest).map fun r => ((r.1 : Int), r.2)

def takeMark (mark : Char) (cs : List Char) : Option (List Char) :=
  match cs.dropWhile Text.isBlank with
  | c :: rest => if c = mark then some rest else none
  | [] => none

/-- The nanoseconds that the digits of a fraction write, of which the first nine count. -/
def nanoOfDigits (ds : List Char) : Nat := Text.digitsValue ((ds ++ List.replicate 9 '0').take 9)

def takeFraction : List Char → Option (Nat × List Char)
  | '.' :: cs =>
    let ds := cs.takeWhile Char.isDigit
    if ds.isEmpty then none else some (nanoOfDigits ds, cs.drop ds.length)
  | cs => some (0, cs)

def ofIsoText? (s : String) : Option DateTime := do
  let (year, cs) ← takeYear s.toList
  let cs ← takeMark '-' cs
  let (month, cs) ← takeNumber 2 cs
  let cs ← takeMark '-' cs
  let (day, cs) ← takeNumber 2 cs
  let cs ← takeMark 'T' cs
  let (hour, cs) ← takeNumber 2 cs
  let cs ← takeMark ':' cs
  let (minute, cs) ← takeNumber 2 cs
  let cs ← takeMark ':' cs
  let (second, cs) ← takeNumber 2 cs
  let (nano, cs) ← takeFraction cs
  if cs.all Text.isBlank then
    some ⟨← Date.of? year month day, ← Time.ofClock? hour minute second nano⟩
  else none

example : (ofIsoText? " 2024-1 -2T3:4:5.25 ").map isoText = some "2024-01-02T03:04:05.250" := by
  decide
example : ofIsoText? "2024-01-02 03:04:05" = none := by decide
example : ofIsoText? "12024-01-02T03:04:05" = none := by decide

end SqlFilter.DateTime
