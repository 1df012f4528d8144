import SqlFilter.Data.Basic
import SqlFilter.Decimal.Layout
import SqlFilter.Text.Digits

/-! Data as JSON texts, on one line or with two blanks for each level. -/
namespace SqlFilter.Json

def escaped (c : Char) : List Char :=
  match c with
  | '"' => ['\\', '"']
  | '\\' => ['\\', '\\']
  | '\x08' => ['\\', 'b']
  | '\x0c' => ['\\', 'f']
  | '\n' => ['\\', 'n']
  | '\r' => ['\\', 'r']
  | '\t' => ['\\', 't']
  | c =>
    if c.toNat < 0x20 then
      ['\\', 'u', '0', '0', Text.hexChar (c.toNat / 16), Text.hexChar (c.toNat % 16)]
    else [c]

def stringText (s : String) : String := "\"" ++ .ofList (s.toList.flatMap escaped) ++ "\""

inductive Style
  | compact
  | pretty
  deriving DecidableEq, Repr

def lineBreak (style : Style) (level : Nat) : String :=
  match style with
  | .compact => ""
  | .pretty => "\n" ++ .ofList (List.replicate (2 * level) ' ')

def colon : Style → String
  | .compact => ":"
  | .pretty => ": "

def enclosed (style : Style) (level : Nat) (opening closing : String) (parts : List String) :
    String :=
  match parts with
  | [] => opening ++ closing
  | parts =>
    let inner := lineBreak style (level + 1)
    opening ++ inner ++ ("," ++ inner).intercalate parts ++ lineBreak style level ++ closing

mutual

def textAt (style : Style) (level : Nat) : Data → String
  | .null | .unreadable => "null"
  | .bool b => if b then "true" else "false"
  | .integer n => toString n
  | .decimal x => Decimal.Layout.json.text x
  | .text s => stringText s
  | .list items => enclosed style level "[" "]" (itemTexts style (level + 1) items)
  | .record fields => enclosed style level "\x7b" "\x7d" (fieldTexts style (level + 1) fields)

def itemTexts (style : Style) (level : Nat) : List Data → List String
  | [] => []
  | d :: ds => textAt style level d :: itemTexts style level ds

def fieldTexts (style : Style) (level : Nat) : List (String × Data) → List String
  | [] => []
  | (key, d) :: fields =>
    (stringText key ++ colon style ++ textAt style level d) :: fieldTexts style level fields

end

def write (style : Style) (d : Data) : String := textAt style 0 d

end SqlFilter.Json
