/-!
The shortest decimal that reads back as a given double. A finite double is `m * 2 ^ q`; the reals
that round to it form an interval around it, with its ends when `m` is even. Grids of one, two, …
seventeen significant digits are tried in turn, and the first with a point in the interval wins.
-/
namespace SqlFilter.Decimal

/-- Which of two equally near decimals is taken. -/
inductive Tie
  | toEven
  | up
  deriving DecidableEq, Repr

inductive Parts
  | notANumber
  | infinity
  | magnitude (m : Nat) (q : Int)
  deriving DecidableEq, Repr

abbrev twoTo (n : Nat) : Nat := Nat.pow 2 n
abbrev tenTo (n : Nat) : Nat := Nat.pow 10 n

def isNegative (x : Float) : Bool := x.toBits ≥ 0x8000000000000000

def parts (x : Float) : Parts :=
  let fraction := x.toBits.toNat % twoTo 52
  match x.toBits.toNat / twoTo 52 % twoTo 11 with
  | 0 => .magnitude fraction (-1074)
  | 2047 => if fraction = 0 then .infinity else .notANumber
  | e => .magnitude (twoTo 52 + fraction) (e - 1075)

def digitCount (n : Nat) : Nat := (Nat.toDigits 10 n).length

/-- The exponent of the first digit of `num / den`, for quotients of at least `10 ^ (-340)`. -/
def firstExponent (num den : Nat) : Int := digitCount (num * tenTo 340 / den) - 341

/-- Quarters of the unit `2 ^ q` from `m * 2 ^ q` down to the next smaller rounding boundary. -/
def quartersBelow (m : Nat) (q : Int) : Nat := if m = twoTo 52 ∧ q ≠ -1074 then 1 else 2

/--
The point of the grid `10 ^ k` that lies in the rounding interval of `m * 2 ^ q` and is nearest to
it, if there is one.
-/
def onGrid (tie : Tie) (m : Nat) (q k : Int) : Option Nat :=
  let num := twoTo (q - 2).toNat * tenTo (-k).toNat
  let den := twoTo (2 - q).toNat * tenTo k.toNat
  let value := 4 * m * num
  let least := (4 * m - quartersBelow m q) * num
  let greatest := (4 * m + 2) * num
  let inside (c : Nat) : Bool :=
    if m % 2 = 0 then least ≤ c * den && c * den ≤ greatest
    else least < c * den && c * den < greatest
  let d := value / den
  match inside d, inside (d + 1) with
  | false, false => none
  | true, false => some d
  | false, true => some (d + 1)
  | true, true =>
    let twice := 2 * (value % den)
    if twice < den then some d
    else if den < twice then some (d + 1)
    else if tie = .toEven ∧ d % 2 = 0 then some d
    else some (d + 1)

/-- Digits and the exponent of the last of them, for a positive `m * 2 ^ q`. -/
def shortest (tie : Tie) (m : Nat) (q : Int) : Nat × Int :=
  let e := firstExponent (m * twoTo q.toNat) (twoTo (-q).toNat)
  ((List.range 17).findSome? fun (n : Nat) => (onGrid tie m q (e - n)).map (·, e - n)).getD (0, 0)

end SqlFilter.Decimal
