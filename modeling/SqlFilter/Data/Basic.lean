/-!
The data that JSON and TOML texts hold, and how its pieces are read as numbers, texts, choices and
records. Reading fails without a reason: a text has the right shape or it has not.
-/
namespace SqlFilter

inductive Data
  | null
  | bool (b : Bool)
  | integer (n : Int)
  | decimal (x : Float)
  | text (s : String)
  | list (items : List Data)
  /-- Entries in the order of the text; a key may stand there twice. -/
  | record (fields : List (String × Data))
  /--
  A well-formed text without a value: a number beyond the doubles, a character that is half of a
  pair, or too deep a nesting. It may stand only where it is ignored.
  -/
  | unreadable
  deriving Repr

/-- Where data is read from, which decides what a choice may carry as its content. -/
inductive Format
  | json
  /-- A node of a condition, read as a whole before its tag is known. -/
  | node
  | toml
  deriving DecidableEq, Repr

namespace Data

mutual

def isReadable : Data → Bool
  | .list items => areReadable items
  | .record fields => haveReadable fields
  | .unreadable => false
  | .null | .bool _ | .integer _ | .decimal _ | .text _ => true

def areReadable : List Data → Bool
  | [] => true
  | d :: ds => d.isReadable && areReadable ds

def haveReadable : List (String × Data) → Bool
  | [] => true
  | (_, d) :: fields => d.isReadable && haveReadable fields

end

def bool? : Data → Option Bool
  | .bool b => some b
  | _ => none

def text? : Data → Option String
  | .text s => some s
  | _ => none

def int64? : Data → Option Int64
  | .integer n =>
    if Int64.minValue.toInt ≤ n ∧ n ≤ Int64.maxValue.toInt then some (.ofInt n) else none
  | _ => none

def uint64? : Data → Option UInt64
  | .integer n => if 0 ≤ n ∧ n < UInt64.size then some (.ofNat n.toNat) else none
  | _ => none

/-- A decimal, or an integer that becomes the nearest one. -/
def decimal? : Data → Option Float
  | .decimal x => some x
  | .integer n => some (if n < 0 then -n.natAbs.toUInt64.toFloat else n.natAbs.toUInt64.toFloat)
  | _ => none

def list? : Data → Option (List Data)
  | .list items => some items
  | _ => none

/-- What a choice without content may carry where it is written as a record. -/
def isUnit : Format → Data → Bool
  | .json, .null | .node, .null | .node, .record [] | .toml, .record [] | .toml, .list [] => true
  | _, _ => false

/-- One of several names, as a text or as the only key of a record without content. -/
def choice? {α : Type} (f : Format) (names : List (String × α)) : Data → Option α
  | .text s => names.lookup s
  | .record [(s, d)] => if d.isUnit f then names.lookup s else none
  | _ => none

def distinct {α : Type} (keys : List String) (fields : List (String × α)) : Bool :=
  keys.all fun key => fields.countP (·.1 == key) ≤ 1

/--
The entries of a record with known keys. Such a record may also be written as the list of its
values in the order of the keys, with at least the first `least` of them.
-/
def fields? (keys : List String) (least : Nat) : Data → Option (List (String × Data))
  | .record fields => if distinct keys fields then some fields else none
  | .list items => if least ≤ items.length then some (keys.zip items) else none
  | _ => none

end Data

abbrev Fields := List (String × Data)

namespace Fields

def required {α : Type} (fields : Fields) (key : String) (read : Data → Option α) : Option α :=
  (fields.lookup key).bind read

def withDefault {α : Type} (fields : Fields) (key : String) (default : α)
    (read : Data → Option α) : Option α :=
  match fields.lookup key with
  | none => some default
  | some d => read d

def optional {α : Type} (fields : Fields) (key : String) (read : Data → Option α) :
    Option (Option α) :=
  fields.withDefault key none fun d => (read d).map some

def onlyKeys (keys : List String) (fields : Fields) : Bool := fields.all fun f => f.1 ∈ keys

end Fields

end SqlFilter
