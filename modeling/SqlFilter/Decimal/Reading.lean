import SqlFilter.Decimal.Shortest
import SqlFilter.Text.Digits

/-! Reading decimal numbers: a run of digits with an exponent, as the nearest double. -/
namespace SqlFilter.Decimal

/-- Below this exponent of the first digit every decimal rounds to zero. -/
def leastExponent : Int := -330

/-- Above this exponent of the first digit every decimal is beyond the finite doubles. -/
def greatestExponent : Int := 310

def nearest (digits : Nat) (exponent : Int) : Float :=
  let e := digitCount digits + exponent - 1
  if digits = 0 ∨ e < leastExponent then 0
  else if greatestExponent < e then 1 / 0
  else Float.ofScientific digits (exponent < 0) exponent.natAbs

structure Numeral where
  negative : Bool
  whole : List Char
  places : List Char
  exponent : Int

def Numeral.value (n : Numeral) : Float :=
  let x := nearest (Text.digitsValue (n.whole ++ n.places)) (n.exponent - n.places.length)
  if n.negative then -x else x

def takeSign : List Char → Bool × List Char
  | '-' :: cs => (true, cs)
  | '+' :: cs => (false, cs)
  | cs => (false, cs)

/-- An exponent part `e` or `E` with a sign and digits; nothing is exponent zero. -/
def exponent? : List Char → Option Int
  | [] => some 0
  | c :: cs =>
    if c == 'e' || c == 'E' then
      let (negative, ds) := takeSign cs
      if ds.isEmpty || !ds.all Char.isDigit then none
      else some (if negative then -Text.digitsValue ds else Text.digitsValue ds)
    else none

def numeral? (cs : List Char) : Option Numeral :=
  let (negative, cs) := takeSign cs
  let whole := cs.takeWhile Char.isDigit
  let rest := cs.dropWhile Char.isDigit
  let (places, rest) : List Char × List Char := match rest with
    | '.' :: ds => (ds.takeWhile Char.isDigit, ds.dropWhile Char.isDigit)
    | _ => ([], rest)
  if whole.isEmpty && places.isEmpty then none
  else (exponent? rest).map (⟨negative, whole, places, ·⟩)

/-- The double that a text denotes: a decimal number, `NaN`, or an infinity. -/
def ofText? (s : String) : Option Float :=
  match s with
  | "NaN" => some (0 / 0)
  | "inf" => some (1 / 0)
  | "-inf" => some (-1 / 0)
  | _ => (numeral? s.toList).map Numeral.value

end SqlFilter.Decimal
