import SqlFilter.Data.Basic
import SqlFilter.Toml.Stamp

/-! Values of TOML texts, and the data that they are. -/
namespace SqlFilter.Toml

inductive Value
  | string (s : String)
  | integer (n : Int64)
  | float (x : Float)
  | boolean (b : Bool)
  | dateTime (s : Stamp)
  | array (items : List Value)
  | table (entries : List (String × Value))
  deriving Repr

/-- The key under which a date-time holds its text where it is taken for a table. -/
def stampKey : String := "$__toml_private_datetime"

mutual

def Value.toData : Value → Data
  | .string s => .text s
  | .integer n => .integer n.toInt
  | .float x => .decimal x
  | .boolean b => .bool b
  | .dateTime s => .record [(stampKey, .text s.text)]
  | .array items => .list (Value.toDataList items)
  | .table entries => .record (Value.toFields entries)

def Value.toDataList : List Value → List Data
  | [] => []
  | v :: vs => v.toData :: Value.toDataList vs

def Value.toFields : List (String × Value) → List (String × Data)
  | [] => []
  | (key, v) :: entries => (key, v.toData) :: Value.toFields entries

end

mutual

/--
A value with date-times for the tables that stand for one. These are the tables with `stampKey`
as their first key; the text under it has to be that of a date-time, and other keys are ignored.
-/
def Value.withStamps? : Value → Option Value
  | .table [] => some (.table [])
  | .table ((key, v) :: entries) =>
    if key = stampKey then
      match v with
      | .string s => (Stamp.ofText? s).map .dateTime
      | _ => none
    else do
      some (.table ((key, ← v.withStamps?) :: (← Value.entriesWithStamps? entries)))
  | .array items => (Value.itemsWithStamps? items).map .array
  | v => some v

def Value.itemsWithStamps? : List Value → Option (List Value)
  | [] => some []
  | v :: vs => do some ((← v.withStamps?) :: (← Value.itemsWithStamps? vs))

def Value.entriesWithStamps? : List (String × Value) → Option (List (String × Value))
  | [] => some []
  | (key, v) :: entries => do
    some ((key, ← v.withStamps?) :: (← Value.entriesWithStamps? entries))

end

end SqlFilter.Toml
