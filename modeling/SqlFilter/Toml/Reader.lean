import SqlFilter.Decimal.Reading
import SqlFilter.Toml.Table
import SqlFilter.Toml.Text

/-!
TOML texts as tables. Readers take what they read from the front of the text; `fuel` bounds their
recursion by the length of the text, and `depth` is how many more arrays and inline tables may be
opened.
-/
namespace SqlFilter.Toml

/-- Digits with single underscores between them, without these. -/
def takeSpaced (p : Char → Bool) : List Char → List Char × List Char
  | '_' :: c :: cs =>
    if p c then
      let (ds, rest) := takeSpaced p cs
      (c :: ds, rest)
    else ([], '_' :: c :: cs)
  | c :: cs =>
    if p c then
      let (ds, rest) := takeSpaced p cs
      (c :: ds, rest)
    else ([], c :: cs)
  | [] => ([], [])

/-- Digits with underscores between them, of which the first is no underscore. -/
def takeDigits (p : Char → Bool) (cs : List Char) : Option (List Char × List Char) :=
  if (cs.head?.map p).getD false then some (takeSpaced p cs) else none

/-- A decimal integer without its sign. Only zero begins with the digit zero. -/
def takeWhole : List Char → Option (List Char × List Char)
  | '0' :: cs => some (['0'], cs)
  | cs => takeDigits Char.isDigit cs

def takeExponent : List Char → Option (Int × List Char)
  | c :: cs =>
    if c == 'e' || c == 'E' then do
      let (negative, cs) := Decimal.takeSign cs
      let (ds, cs) ← takeDigits Char.isDigit cs
      let n := Text.digitsValue ds
      some (if negative then -n else n, cs)
    else none
  | [] => none

/-- A number with a point or an exponent. Only below zero it may be beyond the finite doubles. -/
def takeFloat (cs : List Char) : Option (Value × List Char) := do
  let (negative, cs) := Decimal.takeSign cs
  let (numeral, cs) : Decimal.Numeral × List Char ← match cs with
    | 'i' :: 'n' :: 'f' :: cs =>
      return (.float (if negative then -(1 / 0) else 1 / 0), cs)
    | 'n' :: 'a' :: 'n' :: cs => return (.float (0 / 0), cs)
    | cs => do
      let (whole, cs) ← takeWhole cs
      match cs with
      | '.' :: cs => do
        let (places, cs) ← takeDigits Char.isDigit cs
        match takeExponent cs with
        | some (e, cs) => some (⟨negative, whole, places, e⟩, cs)
        | none => some (⟨negative, whole, places, 0⟩, cs)
      | cs => do
        let (e, cs) ← takeExponent cs
        some (⟨negative, whole, [], e⟩, cs)
  let x := numeral.value
  if x == 1 / 0 then none else some (.float x, cs)

def integer? (n : Int) : Option Value := (Data.integer n).int64?.map .integer

def takeRadix (base : Nat) (p : Char → Bool) (cs : List Char) : Option (Value × List Char) := do
  let (ds, cs) ← takeDigits p cs
  some (← integer? (ds.foldl (fun n c => base * n + (Text.hexDigit? c).getD 0) 0), cs)

def takeInteger : List Char → Option (Value × List Char)
  | '0' :: 'x' :: cs => takeRadix 16 (fun c => (Text.hexDigit? c).isSome) cs
  | '0' :: 'o' :: cs => takeRadix 8 (fun c => '0' ≤ c && c ≤ '7') cs
  | '0' :: 'b' :: cs => takeRadix 2 (fun c => c == '0' || c == '1') cs
  | cs => do
    let (negative, cs) := Decimal.takeSign cs
    let (ds, cs) ← takeWhole cs
    let n := Text.digitsValue ds
    some (← integer? (if negative then -n else n), cs)

def takeNumeric (cs : List Char) : Option (Value × List Char) :=
  (takeStamp .bare cs).map (fun r => (.dateTime r.1, r.2)) <|> takeFloat cs <|> takeInteger cs

def skipComment : List Char → List Char
  | '#' :: cs => cs.dropWhile isLineChar
  | cs => cs

/-- Blanks, line breaks and comments between the items of an array. -/
def skipLines : Nat → List Char → List Char
  | 0, cs => cs
  | fuel + 1, cs =>
    match skipBlanks cs with
    | '#' :: cs => skipLines fuel (cs.dropWhile isLineChar)
    | cs =>
      match takeNewline cs with
      | some cs => skipLines fuel cs
      | none => cs

def greatestDepth : Nat := 79

mutual

def takeValue : Nat → Nat → List Char → Option (Value × List Char)
  | 0, _, _ => none
  | fuel + 1, depth, cs =>
    match cs with
    | '[' :: cs =>
      match depth with
      | 0 => none
      | depth + 1 => (takeItems fuel depth cs).map fun r => (.array r.1, r.2)
    | '\x7b' :: cs =>
      match depth, skipBlanks cs with
      | 0, _ => none
      | _ + 1, '\x7d' :: cs => some (.table [], cs)
      | depth + 1, cs => (takeEntries fuel depth [] cs).map fun r =>
        (.table (Node.toEntries r.1), r.2)
    | 't' :: 'r' :: 'u' :: 'e' :: cs => some (.boolean true, cs)
    | 'f' :: 'a' :: 'l' :: 's' :: 'e' :: cs => some (.boolean false, cs)
    | '"' :: _ | '\'' :: _ => (takeString cs).map fun r => (.string r.1, r.2)
    | cs => takeNumeric cs

/-- The items of an array up to its end. A comma may follow the last one. -/
def takeItems : Nat → Nat → List Char → Option (List Value × List Char)
  | 0, _, _ => none
  | fuel + 1, depth, cs =>
    match skipLines fuel cs with
    | ']' :: cs => some ([], cs)
    | cs => do
      let (v, cs) ← takeValue fuel depth cs
      match skipLines fuel cs with
      | ',' :: cs => (takeItems fuel depth cs).map fun r => (v :: r.1, r.2)
      | ']' :: cs => some ([v], cs)
      | _ => none

/-- The entries of an inline table up to its end, at least one, after those in `entries`. -/
def takeEntries : Nat → Nat → Entries → List Char → Option (Entries × List Char)
  | 0, _, _, _ => none
  | fuel + 1, depth, entries, cs => do
    let (path, cs) ← takeKey cs
    let '=' :: cs := cs | none
    let (v, cs) ← takeValue fuel depth (skipBlanks cs)
    let entries ← entries.addValue .header path.dropLast (path.getLastD "") v
    match skipBlanks cs with
    | ',' :: cs => takeEntries fuel depth entries cs
    | '\x7d' :: cs => some (entries, cs)
    | _ => none

end

def takeLineEnd (cs : List Char) : Option (List Char) :=
  match skipComment (skipBlanks cs) with
  | [] => some []
  | cs => takeNewline cs

structure Document where
  entries : Entries := []
  header : List String := []

def Document.addValue (d : Document) (path : List String) (v : Value) : Option Document := do
  let insert (origin : Origin) (inner : Entries) : Option Entries :=
    inner.addValue origin path.dropLast (path.getLastD "") v
  some { d with entries := ← d.entries.update false insert d.header .header }

def takeLines : Nat → Document → List Char → Option Document
  | 0, _, _ => none
  | fuel + 1, d, cs =>
    match skipBlanks cs with
    | [] => some d
    | '#' :: cs => do takeLines fuel d (← takeLineEnd ('#' :: cs))
    | '[' :: '[' :: cs => do
      let (path, cs) ← takeKey cs
      let ']' :: ']' :: cs := cs | none
      let entries ← d.entries.openItem path.dropLast (path.getLastD "")
      takeLines fuel ⟨entries, path⟩ (← takeLineEnd cs)
    | '[' :: cs => do
      let (path, cs) ← takeKey cs
      let ']' :: cs := cs | none
      let entries ← d.entries.openTable path.dropLast (path.getLastD "")
      takeLines fuel ⟨entries, path⟩ (← takeLineEnd cs)
    | cs =>
      match takeNewline cs with
      | some cs => takeLines fuel d cs
      | none => do
        let (path, cs) ← takeKey cs
        let '=' :: cs := cs | none
        let (v, cs) ← takeValue fuel greatestDepth (skipBlanks cs)
        takeLines fuel (← d.addValue path v) (← takeLineEnd cs)

/-- The top table of a TOML text, which may begin with a byte order mark. -/
def read? (s : String) : Option (List (String × Value)) :=
  let cs := match s.toList with
    | '\uFEFF' :: cs => cs
    | cs => cs
  (takeLines (2 * s.length + 2) {} cs).map fun d => Node.toEntries d.entries

end SqlFilter.Toml
