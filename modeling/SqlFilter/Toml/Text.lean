import SqlFilter.Text.Digits

/-!
Strings and keys of TOML texts. Each reader begins after the opening quotes and leaves what follows
the closing ones.
-/
namespace SqlFilter.Toml

def isBlank (c : Char) : Bool := c == ' ' || c == '\t'

def skipBlanks (cs : List Char) : List Char := cs.dropWhile isBlank

/-- Characters that may stand in a line: no control characters but the tab. -/
def isLineChar (c : Char) : Bool := c == '\t' || (0x20 ≤ c.toNat && c.toNat != 0x7F)

def takeNewline : List Char → Option (List Char)
  | '\n' :: cs => some cs
  | '\r' :: '\n' :: cs => some cs
  | _ => none

def cons (c : Char) (r : Option (List Char × List Char)) : Option (List Char × List Char) :=
  r.map fun r => (c :: r.1, r.2)

def shortEscape? : Char → Option Char
  | 'b' => some '\x08'
  | 't' => some '\t'
  | 'n' => some '\n'
  | 'f' => some '\x0c'
  | 'r' => some '\r'
  | '"' => some '"'
  | '\\' => some '\\'
  | _ => none

/-- The character with a code, which is no half of a pair. -/
def charOf? (n : Nat) : Option Char :=
  if n.isValidChar then some (Char.ofNat n) else none

def longChar? (high low : Option Nat) : Option Char := do
  charOf? ((← high) * 0x10000 + (← low))

def takeBasic : List Char → Option (List Char × List Char)
  | '"' :: cs => some ([], cs)
  | '\\' :: 'u' :: a :: b :: c :: d :: cs => do
    cons (← charOf? (← Text.hex4? a b c d)) (takeBasic cs)
  | '\\' :: 'U' :: a :: b :: c :: d :: e :: f :: g :: h :: cs => do
    cons (← longChar? (Text.hex4? a b c d) (Text.hex4? e f g h)) (takeBasic cs)
  | '\\' :: c :: cs => do cons (← shortEscape? c) (takeBasic cs)
  | c :: cs => if isLineChar c then cons c (takeBasic cs) else none
  | [] => none

def takeLiteral : List Char → Option (List Char × List Char)
  | '\'' :: cs => some ([], cs)
  | c :: cs => if isLineChar c then cons c (takeLiteral cs) else none
  | [] => none

/-- Whether a backslash stands at the end of a line. -/
def endsLine (cs : List Char) : Bool := (takeNewline (skipBlanks cs)).isSome

/--
A string in three double quotes. Up to two quotes may stand right before the closing ones. After a
backslash at the end of a line blanks and line breaks are skipped; `skip` says that this goes on.
-/
def takeLongBasic (skip : Bool) : List Char → Option (List Char × List Char)
  | '"' :: '"' :: '"' :: '"' :: '"' :: cs => some (['"', '"'], cs)
  | '"' :: '"' :: '"' :: '"' :: cs => some (['"'], cs)
  | '"' :: '"' :: '"' :: cs => some ([], cs)
  | '\r' :: '\n' :: cs => if skip then takeLongBasic true cs else cons '\n' (takeLongBasic false cs)
  | '\n' :: cs => if skip then takeLongBasic true cs else cons '\n' (takeLongBasic false cs)
  | '\\' :: 'u' :: a :: b :: c :: d :: cs => do
    cons (← charOf? (← Text.hex4? a b c d)) (takeLongBasic false cs)
  | '\\' :: 'U' :: a :: b :: c :: d :: e :: f :: g :: h :: cs => do
    cons (← longChar? (Text.hex4? a b c d) (Text.hex4? e f g h)) (takeLongBasic false cs)
  | '\\' :: c :: cs =>
    if endsLine (c :: cs) then
      if isBlank c || c == '\n' then takeLongBasic true cs
      else
        match cs with
        | _ :: cs => takeLongBasic true cs
        | [] => none
    else do cons (← shortEscape? c) (takeLongBasic false cs)
  | c :: cs =>
    if skip && isBlank c then takeLongBasic true cs
    else if isLineChar c then cons c (takeLongBasic false cs)
    else none
  | [] => none

def takeLongLiteral : List Char → Option (List Char × List Char)
  | '\'' :: '\'' :: '\'' :: '\'' :: '\'' :: cs => some (['\'', '\''], cs)
  | '\'' :: '\'' :: '\'' :: '\'' :: cs => some (['\''], cs)
  | '\'' :: '\'' :: '\'' :: cs => some ([], cs)
  | '\r' :: '\n' :: cs => cons '\n' (takeLongLiteral cs)
  | '\n' :: cs => cons '\n' (takeLongLiteral cs)
  | c :: cs => if isLineChar c then cons c (takeLongLiteral cs) else none
  | [] => none

def skipFirstNewline (cs : List Char) : List Char := (takeNewline cs).getD cs

def takeString : List Char → Option (String × List Char)
  | '"' :: '"' :: '"' :: cs =>
    (takeLongBasic false (skipFirstNewline cs)).map fun r => (.ofList r.1, r.2)
  | '"' :: cs => (takeBasic cs).map fun r => (.ofList r.1, r.2)
  | '\'' :: '\'' :: '\'' :: cs =>
    (takeLongLiteral (skipFirstNewline cs)).map fun r => (.ofList r.1, r.2)
  | '\'' :: cs => (takeLiteral cs).map fun r => (.ofList r.1, r.2)
  | _ => none

def isBareChar (c : Char) : Bool := c.isAlphanum || c == '-' || c == '_'

def takeSimpleKey : List Char → Option (String × List Char)
  | '"' :: cs => (takeBasic cs).map fun r => (.ofList r.1, r.2)
  | '\'' :: cs => (takeLiteral cs).map fun r => (.ofList r.1, r.2)
  | cs =>
    let key := cs.takeWhile isBareChar
    if key.isEmpty then none else some (.ofList key, cs.dropWhile isBareChar)

/-- A key must have fewer parts than this. -/
def greatestParts : Nat := 80

def takeParts : Nat → List Char → Option (List String × List Char)
  | 0, _ => none
  | fuel + 1, cs => do
    let (part, cs) ← takeSimpleKey (skipBlanks cs)
    match skipBlanks cs with
    | '.' :: cs => (takeParts fuel cs).map fun r => (part :: r.1, r.2)
    | cs => some ([part], cs)

/-- A key with the parts between its points, and blanks around them. -/
def takeKey (cs : List Char) : Option (List String × List Char) := takeParts (greatestParts - 1) cs

end SqlFilter.Toml
