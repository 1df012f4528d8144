import SqlFilter.Decimal.Shortest

/-! Decimal numbers as text: a layout says how the shortest digits of a double are written. -/
namespace SqlFilter.Decimal

structure Layout where
  /-- Of two shortest decimals at the same distance this one is written. -/
  tie : Tie
  /-- The exponents of the first digit for which no exponent is written, ends included. -/
  positional : Option (Int × Int)
  pointZero : Bool
  notANumber : String
  infinity : String
  negativeInfinity : String

/-- In SQL text no exponent is written, and a whole number has no point. -/
def Layout.sql : Layout where
  tie := .up
  positional := none
  pointZero := false
  notANumber := "NaN"
  infinity := "inf"
  negativeInfinity := "-inf"

/-- JSON has exponents outside `1e-5` to `1e15`, and no numbers that are not finite. -/
def Layout.json : Layout where
  tie := .toEven
  positional := some (-5, 15)
  pointZero := true
  notANumber := "null"
  infinity := "null"
  negativeInfinity := "null"

def Layout.isPositional (l : Layout) (e : Int) : Bool :=
  match l.positional with
  | none => true
  | some (least, greatest) => least ≤ e && e ≤ greatest

def positionalText (pointZero : Bool) (digits : List Char) (e : Int) : List Char :=
  if e < 0 then
    '0' :: '.' :: (List.replicate (-e - 1).toNat '0' ++ digits)
  else
    let whole := digits.take (e.toNat + 1)
    let zeros := List.replicate (e.toNat + 1 - digits.length) '0'
    let places := digits.drop (e.toNat + 1)
    if places.isEmpty then whole ++ zeros ++ (if pointZero then ['.', '0'] else [])
    else whole ++ '.' :: places

def exponentText (digits : List Char) (e : Int) : List Char :=
  let places := digits.drop 1
  digits.take 1 ++ (if places.isEmpty then [] else '.' :: places) ++
    'e' :: (if e < 0 then '-' else '+') :: Nat.toDigits 10 e.natAbs

def significantDigits (n : Nat) : List Char :=
  ((Nat.toDigits 10 n).reverse.dropWhile (· == '0')).reverse

def Layout.magnitude (l : Layout) (m : Nat) (q : Int) : List Char :=
  if m = 0 then if l.pointZero then ['0', '.', '0'] else ['0']
  else
    let (n, k) := shortest l.tie m q
    let e := k + digitCount n - 1
    let digits := significantDigits n
    if l.isPositional e then positionalText l.pointZero digits e else exponentText digits e

def Layout.text (l : Layout) (x : Float) : String :=
  match parts x with
  | .notANumber => l.notANumber
  | .infinity => if isNegative x then l.negativeInfinity else l.infinity
  | .magnitude m q =>
    .ofList (if isNegative x then '-' :: l.magnitude m q else l.magnitude m q)

def text (x : Float) : String := Layout.sql.text x

example : text 2.5 = "2.5" ∧ text 100 = "100" ∧ text (-0.0) = "-0" := by decide +kernel
example : text 1e21 = "1000000000000000000000" := by decide +kernel
example : Layout.json.text 1e16 = "1e+16" ∧ Layout.json.text 1.5e-7 = "1.5e-7" := by decide +kernel
example : Layout.json.text 0.00001 = "0.00001" ∧ Layout.json.text 1 = "1.0" := by decide +kernel

end SqlFilter.Decimal
