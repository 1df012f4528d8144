import SqlFilter.Data.Basic
import SqlFilter.Decimal.Reading

/-!
Numbers of JSON texts. A number without point and exponent that fits 64 bits is an integer. Any
other is a decimal: of its digits those count that together fit 64 bits, and the decimal is their
nearest double, times or divided by a power of ten as a double.
-/
namespace SqlFilter.Json

/-- The greatest integer that the digits of a number are collected in. -/
def greatestSignificand : Nat := 18446744073709551615

/-- The greatest exponent for which the power of ten is a finite double. -/
def greatestPower : Nat := 308

/-- Beyond this exponent every number is zero or out of range. -/
def greatestExponent : Nat := 2147483647

/-- How far integers reach below zero. -/
def greatestBelowZero : Nat := 9223372036854775808

def powerOfTen (e : Nat) : Float := Float.ofScientific 1 false e

/-- Collects digits as long as they fit; the second result is how many did not. -/
def collect (n : Nat) : List Char → Nat × Nat
  | [] => (n, 0)
  | c :: cs =>
    let m := 10 * n + Text.digitValue c
    if m ≤ greatestSignificand then collect m cs else (n, cs.length + 1)

def scaleDown (x : Float) (e : Nat) : Float :=
  if e ≤ greatestPower then x / powerOfTen e
  else if x == 0 then x
  else scaleDown (x / powerOfTen greatestPower) (e - greatestPower)
  termination_by e
  decreasing_by simp only [greatestPower] at *; omega

def scale? (n : Nat) (e : Int) : Option Float :=
  let x := n.toUInt64.toFloat
  if e < 0 then some (scaleDown x e.natAbs)
  else if e.toNat ≤ greatestPower then
    let y := x * powerOfTen e.toNat
    if y.isInf then none else some y
  else if x == 0 then some x
  else none

structure Numeral where
  negative : Bool
  whole : List Char
  places : Option (List Char)
  exponent : Option Int
  deriving Repr

/--
Significand and exponent of a number with a point or an exponent. Digits of the whole part that do
not fit raise the exponent; those after the point are dropped.
-/
def Numeral.significand (n : Numeral) : Nat × Int :=
  let places := n.places.getD []
  let (whole, dropped) := collect 0 n.whole
  let (all, left) := collect whole places
  (all, dropped - (places.length - left : Nat))

def Numeral.decimal (n : Numeral) : Data :=
  let (s, e) := n.significand
  let exponent := n.exponent.getD 0
  let x : Option Float :=
    if exponent.natAbs ≤ greatestExponent then scale? s (e + exponent)
    else if s ≠ 0 ∧ 0 < exponent then none
    else some 0
  match x with
  | some x => .decimal (if n.negative then -x else x)
  | none => .unreadable

/-- What a number denotes. Minus zero is a decimal, and so is an integer that is too long. -/
def Numeral.data (n : Numeral) : Data :=
  let value := Text.digitsValue n.whole
  if n.places.isSome || n.exponent.isSome then n.decimal
  else if n.negative then
    if 0 < value ∧ value ≤ greatestBelowZero then .integer (-value) else n.decimal
  else if value ≤ greatestSignificand then .integer value
  else n.decimal

end SqlFilter.Json
