import SqlFilter.Json.Number

/-!
JSON texts as data. A reader takes what it reads from the front of the text and leaves the rest;
`fuel` bounds the recursion by the length of the text, and `depth` is how many more arrays and
objects may be opened. What is nested deeper is unreadable, and still has to be well-formed.
-/
namespace SqlFilter.Json

def isBlank (c : Char) : Bool := c == ' ' || c == '\n' || c == '\t' || c == '\r'

def skipBlanks (cs : List Char) : List Char := cs.dropWhile isBlank

/-- How deep arrays and objects that are read may be nested. -/
def greatestDepth : Nat := 127

def shortEscape? : Char → Option Char
  | '"' => some '"'
  | '\\' => some '\\'
  | '/' => some '/'
  | 'b' => some '\x08'
  | 'f' => some '\x0c'
  | 'n' => some '\n'
  | 'r' => some '\r'
  | 't' => some '\t'
  | _ => none

def isHighHalf (n : Nat) : Bool := 0xD800 ≤ n && n ≤ 0xDBFF

def isLowHalf (n : Nat) : Bool := 0xDC00 ≤ n && n ≤ 0xDFFF

def pairChar (high low : Nat) : Char :=
  Char.ofNat (0x10000 + (high - 0xD800) * 0x400 + (low - 0xDC00))

def prepend (c : Option Char) (r : Option (List Char) × List Char) :
    Option (List Char) × List Char :=
  (match c, r.1 with
    | some c, some cs => some (c :: cs)
    | _, _ => none, r.2)

/-- The character of a unit of 16 bits; half of a pair is none. -/
def unitChar? (n : Nat) : Option Char := if isHighHalf n || isLowHalf n then none else Char.ofNat n

/-- A character that follows the first half of a pair leaves the pair open, so there is no text. -/
def unlessPending (pending : Option Nat) (c : Char) : Option Char :=
  if pending.isSome then none else some c

/--
The rest of a string after its opening quote, and after the first half of a pair if one is
pending. The text of a string is missing if it has half of a pair.
-/
def takeString (pending : Option Nat) : List Char → Option (Option (List Char) × List Char)
  | '"' :: cs => some (if pending.isSome then none else some [], cs)
  | '\\' :: 'u' :: a :: b :: c :: d :: cs => do
    let n ← Text.hex4? a b c d
    match pending with
    | some high =>
      if isLowHalf n then (takeString none cs).map (prepend (pairChar high n))
      else (takeString none cs).map (prepend none)
    | none =>
      if isHighHalf n then takeString (some n) cs
      else (takeString none cs).map (prepend (unitChar? n))
  | '\\' :: c :: cs => do
    let c ← shortEscape? c
    (takeString none cs).map (prepend (unlessPending pending c))
  | c :: cs =>
    if c.toNat < 0x20 then none
    else (takeString none cs).map (prepend (unlessPending pending c))
  | [] => none

def takeDigits (cs : List Char) : Option (List Char × List Char) :=
  let ds := cs.takeWhile Char.isDigit
  if ds.isEmpty then none else some (ds, cs.dropWhile Char.isDigit)

def takeExponent : List Char → Option (Option Int × List Char)
  | c :: cs =>
    if c == 'e' || c == 'E' then do
      let (negative, cs) := Decimal.takeSign cs
      let (ds, cs) ← takeDigits cs
      let n := Text.digitsValue ds
      some (some (if negative then -n else n), cs)
    else some (none, c :: cs)
  | [] => some (none, [])

def takePlaces : List Char → Option (Option (List Char) × List Char)
  | '.' :: cs => (takeDigits cs).map fun r => (some r.1, r.2)
  | cs => some (none, cs)

def takeMinus : List Char → Bool × List Char
  | '-' :: cs => (true, cs)
  | cs => (false, cs)

/-- The digits before the point of a number. Only zero begins with the digit zero. -/
def takeWhole : List Char → Option (List Char × List Char)
  | '0' :: cs => if (cs.head?.map Char.isDigit).getD false then none else some (['0'], cs)
  | cs => takeDigits cs

def takeNumber (cs : List Char) : Option (Data × List Char) := do
  let (negative, cs) := takeMinus cs
  let (whole, cs) ← takeWhole cs
  let (places, cs) ← takePlaces cs
  let (exponent, cs) ← takeExponent cs
  some (Numeral.data ⟨negative, whole, places, exponent⟩, cs)

def takeText (cs : List Char) : Option (Data × List Char) :=
  (takeString none cs).map fun r => ((r.1.map fun s => Data.text (.ofList s)).getD .unreadable, r.2)

/-- An array or an object that is opened where `depth` more may be. -/
def nested (depth : Nat) (d : Data) : Data := if depth = 0 then .unreadable else d

mutual

def takeValue : Nat → Nat → List Char → Option (Data × List Char)
  | 0, _, _ => none
  | fuel + 1, depth, cs =>
    match skipBlanks cs with
    | 'n' :: 'u' :: 'l' :: 'l' :: cs => some (.null, cs)
    | 't' :: 'r' :: 'u' :: 'e' :: cs => some (.bool true, cs)
    | 'f' :: 'a' :: 'l' :: 's' :: 'e' :: cs => some (.bool false, cs)
    | '"' :: cs => takeText cs
    | '[' :: cs =>
      match skipBlanks cs with
      | ']' :: cs => some (nested depth (.list []), cs)
      | cs => (takeItems fuel (depth - 1) cs).map fun r => (nested depth (.list r.1), r.2)
    | '\x7b' :: cs =>
      match skipBlanks cs with
      | '\x7d' :: cs => some (nested depth (.record []), cs)
      | cs => (takeEntries fuel (depth - 1) cs).map fun r =>
        (nested depth ((r.1.map Data.record).getD .unreadable), r.2)
    | cs => takeNumber cs

def takeItems : Nat → Nat → List Char → Option (List Data × List Char)
  | 0, _, _ => none
  | fuel + 1, depth, cs => do
    let (d, cs) ← takeValue fuel depth cs
    match skipBlanks cs with
    | ',' :: cs => (takeItems fuel depth cs).map fun r => (d :: r.1, r.2)
    | ']' :: cs => some ([d], cs)
    | _ => none

/-- The entries of an object up to its end, at least one; none if a key has no text. -/
def takeEntries : Nat → Nat → List Char → Option (Option (List (String × Data)) × List Char)
  | 0, _, _ => none
  | fuel + 1, depth, cs => do
    let '"' :: cs := skipBlanks cs | none
    let (key, cs) ← takeString none cs
    let ':' :: cs := skipBlanks cs | none
    let (d, cs) ← takeValue fuel depth cs
    let entry := key.map fun key => (String.ofList key, d)
    match skipBlanks cs with
    | ',' :: cs =>
      (takeEntries fuel depth cs).map fun r =>
        ((entry.bind fun e => r.1.map fun es => e :: es), r.2)
    | '\x7d' :: cs => some (entry.map fun e => [e], cs)
    | _ => none

end

def read? (s : String) : Option Data :=
  match takeValue (2 * s.length + 1) greatestDepth s.toList with
  | some (d, rest) => if (skipBlanks rest).isEmpty then some d else none
  | none => none

end SqlFilter.Json
